import LineScript.Grammar
import LineScript.Parsing.Outcome
import LineScript.Tree

/-!
# Blocks and function definitions

The rules of a grammar call each other through one another: a block holds
statements, a statement holds expressions, an expression may hold a block.  Here
this knot is left open.  A rule gets the parsers for the parts of its construct as
an argument, `Parts`, and is an ordinary function of them.

Blocks and function definitions stand in statements and in expressions, so their
rules come first.
-/

namespace LineScript

/-- The parsers for the parts of a construct. -/
structure Parts where
  /-- An expression whose operators all bind tighter than the given precedence. -/
  expression : Precedence → Parser Expr
  /-- What such an expression goes on with after its left operand. -/
  operators : Precedence → Expr → Parser Expr
  /-- Arguments with commas between them, the first of which is current. -/
  arguments : Parser (List Expr)
  /-- Parameters with commas between them, the first of which is next. -/
  parameters : Parser (List Parameter)
  /-- The statements up to a closing brace or the end of input. -/
  statements : Parser (List Stmt)
  /-- The statements up to the end of input. -/
  program : Parser (List Stmt)

namespace Parts

/-- The parts of a construct that may not have any. -/
def exhausted : Parts where
  expression _ := Parser.exhausted
  operators _ _ := Parser.exhausted
  arguments := Parser.exhausted
  parameters := Parser.exhausted
  statements := Parser.exhausted
  program := Parser.exhausted

end Parts

namespace Parser

/-- Moves over a line end that is current. -/
def skipLineEnd : Parser Unit := do
  if ← atKind .newline then advance

/-- The statements of a block, up to its closing brace.  A missing brace is recorded. -/
def blockBody (parts : Parts) : Parser (List Stmt) := do
  let statements ← parts.statements
  let last ← current
  if last.kind = .endOfInput then
    record ⟨.expectedToken .closeCurly last.kind, last.position⟩
  return statements

/-- A block, whose opening brace is current; on success its closing brace is current.
Statements that are broken are skipped, and a missing brace is recorded, so a block
never fails. -/
def block (parts : Parts) : Parser Block := do
  let token ← current
  advance
  skipLineEnd
  let statements ← blockBody parts
  return ⟨token, statements⟩

/-- A type and a name. -/
def parameter : Parser Parameter := do
  let declaredType ← expect .typeName
  let name ← expect .identifier
  return ⟨TypeName.ofToken declaredType, Name.ofToken name⟩

/-- Parameters with commas between them, the first of which is next. -/
def parameters (parts : Parts) : Parser (List Parameter) := do
  let first ← parameter
  if ← beforeKind .comma then
    advance
    let others ← parts.parameters
    return first :: others
  else return [first]

/-- A parameter list, whose opening parenthesis is current; on success its closing
parenthesis is. -/
def parameterList (parts : Parts) : Parser (List Parameter) := do
  if ← beforeKind .closeParen then
    advance
    return []
  else
    let list ← parts.parameters
    let _ ← expect .closeParen
    return list

/-- The type that stands before the body of a function, if one does. -/
def returnType : Parser (Option TypeName) := do
  if ← beforeKind .typeName then
    advance
    return some (TypeName.ofToken (← current))
  else return none

/-- A function definition, from the word that begins it to the closing brace of its body. -/
def functionDefinition (parts : Parts) : Parser FunctionDefinition := do
  let token ← current
  let name ← expect .identifier
  let _ ← expect .openParen
  let list ← parameterList parts
  let type ← returnType
  let _ ← expect .openCurly
  let body ← block parts
  return ⟨token, Name.ofToken name, list, type, body⟩

end Parser

end LineScript
