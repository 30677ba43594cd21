import LineScript.Proofs.Grammar
import LineScript.Proofs.Tree.Origins
import LineScript.Text.Decimal

/-!
# Faithful trees

A tree is faithful to its tokens when every node is made from tokens of the kinds that its
construct is spelled with, and says what these say: names, types, strings and operators are
the texts of their tokens, and literals have the values that theirs denote.
-/

namespace LineScript

/-! ## All tokens of a tree -/

mutual

/-- The tokens of the nodes of an expression, in source order.  That of a call, its opening
parenthesis, stands between its callee and its arguments. -/
def Expr.tokens : Expr → List Token
  | .identifier name => [name.token]
  | .boolean token _ => [token]
  | .integer token _ => [token]
  | .string token _ => [token]
  | .unary token _ operand => token :: operand.tokens
  | .binary token left _ right => left.tokens ++ token :: right.tokens
  | .conditional token condition consequence none =>
    token :: condition.tokens ++ consequence.tokens
  | .conditional token condition consequence (some alternative) =>
    token :: condition.tokens ++ consequence.tokens ++ alternative.tokens
  | .call token callee arguments => callee.tokens ++ token :: Expr.tokensAll arguments
  | .function definition => definition.tokens
termination_by structural expression => expression

/-- The tokens of the nodes of expressions, in source order. -/
def Expr.tokensAll : List Expr → List Token
  | [] => []
  | expression :: others => expression.tokens ++ Expr.tokensAll others
termination_by structural expressions => expressions

/-- The tokens of the nodes of a block, in source order. -/
def Block.tokens : Block → List Token
  | ⟨token, statements⟩ => token :: Stmt.tokensAll statements
termination_by structural block => block

/-- The tokens of the nodes of a function, in source order. -/
def FunctionDefinition.tokens : FunctionDefinition → List Token
  | ⟨token, name, parameters, returnType, body⟩ =>
    token :: name.token :: parameters.flatMap Parameter.origins ++
      TypeName.originsOf returnType ++ body.tokens
termination_by structural definition => definition

/-- The tokens of the nodes of a statement, in source order.  The token of an expression
statement is listed with its expression. -/
def Stmt.tokens : Stmt → List Token
  | .expression _ value => value.tokens
  | .block content => content.tokens
  | .var token declaredType name value =>
    token :: declaredType.token :: name.token :: value.tokens
  | .ret token value => token :: value.tokens
  | .function definition => definition.tokens
  | .entrypoint token name body => token :: name.token :: body.tokens
termination_by structural statement => statement

/-- The tokens of the nodes of statements, in source order. -/
def Stmt.tokensAll : List Stmt → List Token
  | [] => []
  | statement :: others => statement.tokens ++ Stmt.tokensAll others
termination_by structural statements => statements

end

attribute [simp] Expr.tokens Expr.tokensAll Block.tokens FunctionDefinition.tokens Stmt.tokens
attribute [simp] Stmt.tokensAll

@[simp]
theorem Stmt.tokensAll_append (first second : List Stmt) :
    Stmt.tokensAll (first ++ second) = Stmt.tokensAll first ++ Stmt.tokensAll second := by
  induction first with
  | nil => rfl
  | cons statement others ih => simp [ih]

/-- The tokens of the nodes of a program, in source order. -/
def Program.tokens (program : Program) : List Token :=
  Stmt.tokensAll program.statements

/-! ## Nodes that say what their tokens say -/

/-- The name is what an identifier spells. -/
structure Name.Faithful (name : Name) : Prop where
  kind_eq : name.token.kind = .identifier
  text_eq : name.text = name.token.text

/-- The type is what the name of a type spells. -/
structure TypeName.Faithful (name : TypeName) : Prop where
  kind_eq : name.token.kind = .typeName
  text_eq : name.text = name.token.text

/-- The type and the name of the parameter are what their tokens spell. -/
structure Parameter.Faithful (parameter : Parameter) : Prop where
  declaredType : parameter.declaredType.Faithful
  name : parameter.name.Faithful

mutual

/-- The expression says what its tokens say.  An integer that is out of range is zero. -/
def Expr.Faithful : Expr → Prop
  | .identifier name => name.Faithful
  | .boolean token value =>
    token.kind ∈ [TokenKind.trueLiteral, .falseLiteral] ∧
      (value = true ↔ token.kind = .trueLiteral)
  | .integer token value => token.kind = .integer ∧ value = (readInt64? token.text).getD 0
  | .string token value => token.kind = .string ∧ value = token.text
  | .unary token operator operand =>
    token.kind ∈ [TokenKind.dash, .exclamation] ∧ operator = token.text ∧ operand.Faithful
  | .binary token left operator right =>
    token.kind ∈ Grammar.binaryKinds ∧ operator = token.text ∧ left.Faithful ∧ right.Faithful
  | .conditional token condition consequence none =>
    token.kind = .kwIf ∧ condition.Faithful ∧ consequence.Faithful
  | .conditional token condition consequence (some alternative) =>
    token.kind = .kwIf ∧ condition.Faithful ∧ consequence.Faithful ∧ alternative.Faithful
  | .call token callee arguments =>
    token.kind = .openParen ∧ callee.Faithful ∧ Expr.FaithfulAll arguments
  | .function definition => definition.Faithful
termination_by structural expression => expression

/-- The expressions say what their tokens say. -/
def Expr.FaithfulAll : List Expr → Prop
  | [] => True
  | expression :: others => expression.Faithful ∧ Expr.FaithfulAll others
termination_by structural expressions => expressions

/-- The block says what its tokens say. -/
def Block.Faithful : Block → Prop
  | ⟨token, statements⟩ => token.kind = .openCurly ∧ Stmt.FaithfulAll statements
termination_by structural block => block

/-- The function says what its tokens say. -/
def FunctionDefinition.Faithful : FunctionDefinition → Prop
  | ⟨token, name, parameters, returnType, body⟩ =>
    token.kind = .kwFunc ∧ name.Faithful ∧ (∀ parameter ∈ parameters, parameter.Faithful) ∧
      (∀ type ∈ returnType, type.Faithful) ∧ body.Faithful
termination_by structural definition => definition

/-- The statement says what its tokens say. -/
def Stmt.Faithful : Stmt → Prop
  | .expression _ value => value.Faithful
  | .block content => content.Faithful
  | .var token declaredType name value =>
    token.kind = .kwVar ∧ declaredType.Faithful ∧ name.Faithful ∧ value.Faithful
  | .ret token value => token.kind = .kwReturn ∧ value.Faithful
  | .function definition => definition.Faithful
  | .entrypoint token name body => token.kind = .kwEfunc ∧ name.Faithful ∧ body.Faithful
termination_by structural statement => statement

/-- The statements say what their tokens say. -/
def Stmt.FaithfulAll : List Stmt → Prop
  | [] => True
  | statement :: others => statement.Faithful ∧ Stmt.FaithfulAll others
termination_by structural statements => statements

end

attribute [simp] Expr.Faithful Expr.FaithfulAll Block.Faithful FunctionDefinition.Faithful
attribute [simp] Stmt.Faithful Stmt.FaithfulAll

@[simp]
theorem Stmt.faithfulAll_append {first second : List Stmt} :
    Stmt.FaithfulAll (first ++ second) ↔ Stmt.FaithfulAll first ∧ Stmt.FaithfulAll second := by
  induction first with
  | nil => simp
  | cons statement others ih => simp [ih, and_assoc]

/-- The program says what its tokens say. -/
def Program.Faithful (program : Program) : Prop :=
  Stmt.FaithfulAll program.statements

end LineScript
