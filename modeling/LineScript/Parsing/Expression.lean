import LineScript.Parsing.Construct
import LineScript.Text.Decimal

/-!
# Expressions

An expression is what the prefix rule of its first token makes, followed by
operators for as long as they bind tighter than the precedence asked for.  A binary
operator asks for its right operand at its own precedence, so operators of one
precedence group to the left.  A line end before an operator ends the expression.

Each rule starts with its first token current and stops with its last one current.
-/

namespace LineScript

namespace Parser

/-- An integer.  One that is out of range is recorded and stands for zero, so that
the statement around it is read to its end. -/
def integer : Parser Expr := do
  let token ← current
  match readInt64? token.text with
  | some value => return .integer token value
  | none =>
    record ⟨.notAnInteger token.text, token.position⟩
    return .integer token 0

/-- A conditional, from the word before its condition to the closing brace of its
last block. -/
def conditional (parts : Parts) : Parser Expr := do
  let token ← current
  let _ ← expect .openParen
  advance
  let condition ← parts.expression .lowest
  let _ ← expect .closeParen
  let _ ← expect .openCurly
  let consequence ← block parts
  if ← beforeKind .kwElse then
    advance
    let _ ← expect .openCurly
    let alternative ← block parts
    return .conditional token condition consequence (some alternative)
  else return .conditional token condition consequence none

/-- Arguments with commas between them, the first of which is current. -/
def arguments (parts : Parts) : Parser (List Expr) := do
  let first ← parts.expression .lowest
  if ← beforeKind .comma then
    advance
    advance
    let others ← parts.arguments
    return first :: others
  else return [first]

end Parser

namespace PrefixRule

/-- The expression that begins with the current token by this rule. -/
def parser (parts : Parts) : PrefixRule → Parser Expr
  | identifier => do
    return .identifier (Name.ofToken (← Parser.current))
  | integer => Parser.integer
  | string => do
    let token ← Parser.current
    return .string token token.text
  | boolean => do
    let token ← Parser.current
    return .boolean token (token.kind = .trueLiteral)
  | unary => do
    let token ← Parser.current
    Parser.advance
    let operand ← parts.expression .unary
    return .unary token token.text operand
  | grouping => do
    Parser.advance
    let expression ← parts.expression .lowest
    let _ ← Parser.expect .closeParen
    return expression
  | conditional => Parser.conditional parts
  | function => do
    return .function (← Parser.functionDefinition parts)

end PrefixRule

namespace InfixRule

/-- The expression that goes on from `left` with the current token by this rule. -/
def parser (grammar : Grammar) (parts : Parts) (left : Expr) : InfixRule → Parser Expr
  | binary => do
    let token ← Parser.current
    Parser.advance
    let right ← parts.expression (grammar.precedence token.kind)
    return .binary token left token.text right
  | call => do
    let token ← Parser.current
    if ← Parser.beforeKind .closeParen then
      Parser.advance
      return .call token left []
    else
      Parser.advance
      let arguments ← parts.arguments
      let _ ← Parser.expect .closeParen
      return .call token left arguments

end InfixRule

namespace Parser

/-- An expression whose operators all bind tighter than `minimum`. -/
def expression (grammar : Grammar) (parts : Parts) (minimum : Precedence) : Parser Expr := do
  let token ← current
  match grammar.prefixRule token.kind with
  | none => fail ⟨.noPrefixRule token.kind, token.position⟩
  | some rule =>
    let left ← rule.parser parts
    parts.operators minimum left

/-- What an expression whose operators all bind tighter than `minimum` goes on with
after `left`. -/
def operators (grammar : Grammar) (parts : Parts) (minimum : Precedence) (left : Expr) :
    Parser Expr := do
  let next ← peek
  if next.kind = .newline then return left
  else
    match grammar.infixRule next.kind with
    | none => return left
    | some (precedence, rule) =>
      if minimum < precedence then
        advance
        let joined ← rule.parser grammar parts left
        parts.operators minimum joined
      else return left

end Parser

end LineScript
