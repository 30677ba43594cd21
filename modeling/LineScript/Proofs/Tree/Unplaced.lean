import LineScript.Diagnostic
import LineScript.Tree

/-!
# Trees without positions

Two tokens, or two trees, that differ only in the positions of their tokens are the
same once every position is forgotten.
-/

namespace LineScript

/-- The token without its position. -/
def Token.unplaced (token : Token) : Token :=
  { token with position := .nowhere }

@[simp] theorem Token.kind_unplaced (token : Token) : token.unplaced.kind = token.kind := rfl

theorem Token.unplaced_eq_iff {left right : Token} :
    left.unplaced = right.unplaced ↔ left.kind = right.kind ∧ left.text = right.text := by
  simp [unplaced]

namespace Expr

/-- A token that no tree keeps. -/
def mark (kind : TokenKind) (text : String) : Token :=
  ⟨kind, text, .nowhere⟩

end Expr

/-- Two token lists that differ only in positions. -/
def Token.Alike (left right : List Token) : Prop :=
  left.map Token.unplaced = right.map Token.unplaced

namespace Token.Alike

variable {tokens first second : List Token} {token : Token}

theorem exists_cons (h : Alike tokens (token :: first)) :
    ∃ other others, tokens = other :: others ∧ other.unplaced = token.unplaced ∧
      Alike others first := by
  simpa [Alike, List.map_eq_cons_iff] using h

theorem exists_append (h : Alike tokens (first ++ second)) :
    ∃ before behind, tokens = before ++ behind ∧ Alike before first ∧ Alike behind second := by
  rw [Alike, List.map_append, List.map_eq_append_iff] at h
  exact h

theorem exists_singleton (h : Alike tokens [token]) :
    ∃ other, tokens = [other] ∧ other.unplaced = token.unplaced := by
  obtain ⟨other, others, rfl, hother, hothers⟩ := h.exists_cons
  rw [Alike, List.map_nil, List.map_eq_nil_iff] at hothers
  exact ⟨other, by rw [hothers], hother⟩

end Token.Alike

/-- The diagnostic without its position. -/
def Diagnostic.unplaced (diagnostic : Diagnostic) : Diagnostic :=
  { diagnostic with position := .nowhere }

/-- The name without its position. -/
def Name.unplaced (name : Name) : Name :=
  { name with token := name.token.unplaced }

/-- The name of a type without its position. -/
def TypeName.unplaced (name : TypeName) : TypeName :=
  { name with token := name.token.unplaced }

/-- The parameter without its positions. -/
def Parameter.unplaced (parameter : Parameter) : Parameter :=
  ⟨parameter.declaredType.unplaced, parameter.name.unplaced⟩

mutual

/-- The expression without its positions. -/
def Expr.unplaced : Expr → Expr
  | .identifier name => .identifier name.unplaced
  | .boolean token value => .boolean token.unplaced value
  | .integer token value => .integer token.unplaced value
  | .string token value => .string token.unplaced value
  | .unary token operator operand => .unary token.unplaced operator operand.unplaced
  | .binary token left operator right =>
    .binary token.unplaced left.unplaced operator right.unplaced
  | .conditional token condition consequence none =>
    .conditional token.unplaced condition.unplaced consequence.unplaced none
  | .conditional token condition consequence (some alternative) =>
    .conditional token.unplaced condition.unplaced consequence.unplaced (some alternative.unplaced)
  | .call token callee arguments =>
    .call token.unplaced callee.unplaced (Expr.unplacedAll arguments)
  | .function definition => .function definition.unplaced
termination_by structural expression => expression

/-- The expressions without their positions. -/
def Expr.unplacedAll : List Expr → List Expr
  | [] => []
  | expression :: others => expression.unplaced :: Expr.unplacedAll others
termination_by structural expressions => expressions

/-- The block without its positions. -/
def Block.unplaced : Block → Block
  | ⟨token, statements⟩ => ⟨token.unplaced, Stmt.unplacedAll statements⟩
termination_by structural block => block

/-- The function without its positions. -/
def FunctionDefinition.unplaced : FunctionDefinition → FunctionDefinition
  | ⟨token, name, parameters, returnType, body⟩ =>
    ⟨token.unplaced, name.unplaced, parameters.map Parameter.unplaced,
      returnType.map TypeName.unplaced, body.unplaced⟩
termination_by structural definition => definition

/-- The statement without its positions. -/
def Stmt.unplaced : Stmt → Stmt
  | .expression token value => .expression token.unplaced value.unplaced
  | .block content => .block content.unplaced
  | .var token declaredType name value =>
    .var token.unplaced declaredType.unplaced name.unplaced value.unplaced
  | .ret token value => .ret token.unplaced value.unplaced
  | .function definition => .function definition.unplaced
  | .entrypoint token name body => .entrypoint token.unplaced name.unplaced body.unplaced
termination_by structural statement => statement

/-- The statements without their positions. -/
def Stmt.unplacedAll : List Stmt → List Stmt
  | [] => []
  | statement :: others => statement.unplaced :: Stmt.unplacedAll others
termination_by structural statements => statements

end

theorem Expr.unplacedAll_eq_map (expressions : List Expr) :
    Expr.unplacedAll expressions = expressions.map Expr.unplaced := by
  induction expressions with
  | nil => rfl
  | cons expression others ih => simp [Expr.unplacedAll, ih]

theorem Stmt.unplacedAll_eq_map (statements : List Stmt) :
    Stmt.unplacedAll statements = statements.map Stmt.unplaced := by
  induction statements with
  | nil => rfl
  | cons statement others ih => simp [Stmt.unplacedAll, ih]

/-- The program without its positions. -/
def Program.unplaced (program : Program) : Program :=
  ⟨program.statements.map Stmt.unplaced⟩

end LineScript
