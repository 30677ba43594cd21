import LineScript.Symbols.Table
import LineScript.Tree

/-!
# The definitions of a program

Verification looks at the definitions that statements make.  At the top level these
are the variables, functions and entrypoints themselves.  Nested definitions stand
in the bodies of functions, entrypoints and blocks, and in the bodies of an
expression or return statement whose value is a conditional or a function.
-/

namespace LineScript

/-- The statements that define a name. -/
inductive Definition where
  | variable (declaredType : TypeName) (name : Name) (value : Expr)
  | function (definition : FunctionDefinition)
  | entrypoint (name : Name)

namespace Definition

/-- The name that is defined. -/
def name : Definition → Name
  | .variable _ name _ => name
  | .function definition => definition.name
  | .entrypoint name => name

/-- The return type that is kept of a function without one. -/
def voidType : String := "void"

/-- What the name is to stand for. -/
def symbol : Definition → Symbol
  | .variable declaredType _ _ => .variable declaredType.text
  | .function definition =>
    .function ((definition.returnType.map (·.text)).getD voidType) definition.parameterTypes
  | .entrypoint _ => .entrypoint

end Definition

/-- The definition that a statement makes by itself. -/
def Stmt.ownDefinitions : Stmt → List Definition
  | .var _ declaredType name value => [.variable declaredType name value]
  | .function definition => [.function definition]
  | .entrypoint _ name _ => [.entrypoint name]
  | .expression _ _ | .block _ | .ret _ _ => []

mutual

/-- The definitions in the bodies of a conditional or a function, in source order. -/
def Expr.definitions : Expr → List Definition
  | .conditional _ _ consequence none => consequence.definitions
  | .conditional _ _ consequence (some alternative) =>
    consequence.definitions ++ alternative.definitions
  | .function definition => definition.definitions
  | _ => []
termination_by structural expression => expression

/-- The definitions in a block, in source order. -/
def Block.definitions : Block → List Definition
  | ⟨_, statements⟩ => Stmt.definitionsOfAll statements
termination_by structural block => block

/-- A function and the definitions in its body. -/
def FunctionDefinition.definitions : FunctionDefinition → List Definition
  | ⟨token, name, parameters, returnType, body⟩ =>
    .function ⟨token, name, parameters, returnType, body⟩ :: body.definitions
termination_by structural definition => definition

/-- The definition that a statement makes and those nested in it, in source order. -/
def Stmt.definitions : Stmt → List Definition
  | .var _ declaredType name value => [.variable declaredType name value]
  | .function definition => definition.definitions
  | .entrypoint _ name body => .entrypoint name :: body.definitions
  | .expression _ value => value.definitions
  | .ret _ value => value.definitions
  | .block content => content.definitions
termination_by structural statement => statement

/-- The definitions of statements, in source order. -/
def Stmt.definitionsOfAll : List Stmt → List Definition
  | [] => []
  | statement :: others => statement.definitions ++ Stmt.definitionsOfAll others
termination_by structural statements => statements

end

theorem Stmt.definitionsOfAll_eq_flatMap (statements : List Stmt) :
    Stmt.definitionsOfAll statements = statements.flatMap Stmt.definitions := by
  induction statements with
  | nil => rfl
  | cons statement others ih => simp [Stmt.definitionsOfAll, ih]

end LineScript
