import LineScript.Parsing.Expression

/-!
# Statements

A statement takes the line end that follows it.  The statements of a block and of a
program are read one after the other; a broken one is recorded, skipped and leaves
nothing in the tree.
-/

namespace LineScript

namespace Parser

/-- Moves over a line end that is next. -/
def lineEnd : Parser Unit := do
  if ← beforeKind .newline then advance

/-- A variable with its declared type and its value. -/
def var (parts : Parts) : Parser Stmt := do
  let token ← current
  let declaredType ← expect .typeName
  let name ← expect .identifier
  let _ ← expect .assignment
  advance
  let value ← parts.expression .lowest
  lineEnd
  return .var token (TypeName.ofToken declaredType) (Name.ofToken name) value

/-- An entrypoint, whose parentheses must be empty. -/
def entrypoint (parts : Parts) : Parser Stmt := do
  let token ← current
  let name ← expect .identifier
  let _ ← expect .openParen
  let _ ← expect .closeParen
  let _ ← expect .openCurly
  let body ← block parts
  return .entrypoint token (Name.ofToken name) body

end Parser

namespace StmtRule

/-- The statement that begins with the current token by this rule. -/
def parser (parts : Parts) : StmtRule → Parser Stmt
  | expression => do
    let token ← Parser.current
    let value ← parts.expression .lowest
    Parser.lineEnd
    return .expression token value
  | var => Parser.var parts
  | ret => do
    let token ← Parser.current
    Parser.advance
    let value ← parts.expression .lowest
    Parser.lineEnd
    return .ret token value
  | function => do
    return .function (← Parser.functionDefinition parts)
  | entrypoint => Parser.entrypoint parts
  | block => do
    return .block (← Parser.block parts)

end StmtRule

namespace Parser

/-- The statement at the current token: none at a line end, and an expression where
no statement rule applies.  On success the last token of the statement is current. -/
def statement (grammar : Grammar) (parts : Parts) : Parser (Option Stmt) := do
  let token ← current
  if token.kind = .newline then return none
  else
    let statement ← ((grammar.stmtRule token.kind).getD .expression).parser parts
    return some statement

/-- The statements up to a closing brace or the end of input, which is current in
the end.  The first one is read by `one`. -/
def statementsBy (one : Parser (Option Stmt)) (parts : Parts) : Parser (List Stmt) := do
  let token ← current
  if token.kind = .closeCurly ∨ token.kind = .endOfInput then return []
  else if token.kind = .newline then
    advance
    parts.statements
  else
    match ← attempt one with
    | .ok statement =>
      advance
      let others ← parts.statements
      return statement.toList ++ others
    | .error diagnostic =>
      recover diagnostic
      let reached ← current
      if reached.kind = .closeCurly ∨ reached.kind = .endOfInput then return []
      else
        advance
        parts.statements

/-- The statements up to a closing brace or the end of input, which is current in
the end. -/
def statements (grammar : Grammar) (parts : Parts) : Parser (List Stmt) :=
  statementsBy (statement grammar parts) parts

/-- The statements up to the end of input, which is current in the end. -/
def program (grammar : Grammar) (parts : Parts) : Parser (List Stmt) := do
  if ← atKind .endOfInput then return []
  else
    match ← attempt (statement grammar parts) with
    | .ok statement =>
      advance
      let others ← parts.program
      return statement.toList ++ others
    | .error diagnostic =>
      recover diagnostic
      advance
      parts.program

end Parser

end LineScript
