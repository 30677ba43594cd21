import LineScript.Tree

/-!
# The tree as text

A program is shown with one statement to a line.  Operations are shown in
parentheses, so that the text shows the shape of the tree whatever the precedence
of the operators; blocks stand on one line.
-/

namespace LineScript

/-- A parameter as it stands in a parameter list. -/
def Parameter.render (parameter : Parameter) : String :=
  parameter.declaredType.text ++ " " ++ parameter.name.text

/-- The statements of a block, already rendered, between curly braces. -/
def renderBody : List String → String
  | [] => "\x7b \x7d"
  | statements => "\x7b " ++ "; ".intercalate statements ++ " \x7d"

mutual

/-- An expression as text. -/
def Expr.render : Expr → String
  | .identifier name => name.text
  | .boolean _ value => if value then "true" else "false"
  | .integer token _ => token.text
  | .string _ value => "\"" ++ value ++ "\""
  | .unary _ operator operand => "(" ++ operator ++ operand.render ++ ")"
  | .binary _ left operator right =>
    "(" ++ left.render ++ " " ++ operator ++ " " ++ right.render ++ ")"
  | .conditional _ condition consequence none =>
    "if (" ++ condition.render ++ ") " ++ consequence.render
  | .conditional _ condition consequence (some alternative) =>
    "if (" ++ condition.render ++ ") " ++ consequence.render ++ " else " ++ alternative.render
  | .call _ callee arguments =>
    callee.render ++ "(" ++ ", ".intercalate (Expr.renderAll arguments) ++ ")"
  | .function definition => definition.render
termination_by structural expression => expression

/-- Expressions as text, one by one. -/
def Expr.renderAll : List Expr → List String
  | [] => []
  | expression :: others => expression.render :: Expr.renderAll others
termination_by structural expressions => expressions

/-- A block as text. -/
def Block.render : Block → String
  | ⟨_, statements⟩ => renderBody (Stmt.renderAll statements)
termination_by structural block => block

/-- A function as text. -/
def FunctionDefinition.render : FunctionDefinition → String
  | ⟨_, name, parameters, none, body⟩ =>
    "func " ++ name.text ++ "(" ++ ", ".intercalate (parameters.map Parameter.render) ++ ") " ++
      body.render
  | ⟨_, name, parameters, some returnType, body⟩ =>
    "func " ++ name.text ++ "(" ++ ", ".intercalate (parameters.map Parameter.render) ++ ") " ++
      returnType.text ++ " " ++ body.render
termination_by structural definition => definition

/-- A statement as text. -/
def Stmt.render : Stmt → String
  | .expression _ value => value.render
  | .block content => content.render
  | .var _ declaredType name value =>
    "var " ++ declaredType.text ++ " " ++ name.text ++ " = " ++ value.render
  | .ret _ value => "return " ++ value.render
  | .function definition => definition.render
  | .entrypoint _ name body => "efunc " ++ name.text ++ "() " ++ body.render
termination_by structural statement => statement

/-- Statements as text, one by one. -/
def Stmt.renderAll : List Stmt → List String
  | [] => []
  | statement :: others => statement.render :: Stmt.renderAll others
termination_by structural statements => statements

end

theorem Expr.renderAll_eq_map (expressions : List Expr) :
    Expr.renderAll expressions = expressions.map Expr.render := by
  induction expressions with
  | nil => rfl
  | cons expression others ih => simp [Expr.renderAll, ih]

/-- A program as text: each statement and a line end. -/
def Program.render (program : Program) : String :=
  String.join (program.statements.map fun statement => statement.render ++ "\n")

end LineScript
