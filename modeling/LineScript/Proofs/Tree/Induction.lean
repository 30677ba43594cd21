import LineScript.Tree

/-!
# Induction over trees

Expressions hold blocks, blocks hold statements and statements hold expressions again, so a
property of trees is one property for each sort of node.  It holds of every tree when each
node has it as soon as all of its parts do.
-/

namespace LineScript

/-- Properties that a node of a tree inherits from its parts. -/
structure Hereditary (onExpr : Expr → Prop) (onBlock : Block → Prop)
    (onFunction : FunctionDefinition → Prop) (onStmt : Stmt → Prop) : Prop where
  identifier : ∀ name, onExpr (.identifier name)
  boolean : ∀ token value, onExpr (.boolean token value)
  integer : ∀ token value, onExpr (.integer token value)
  string : ∀ token value, onExpr (.string token value)
  unary : ∀ token operator operand, onExpr operand → onExpr (.unary token operator operand)
  binary : ∀ token left operator right, onExpr left → onExpr right →
    onExpr (.binary token left operator right)
  conditional : ∀ token condition consequence, onExpr condition → onBlock consequence →
    onExpr (.conditional token condition consequence none)
  alternative : ∀ token condition consequence alternative, onExpr condition →
    onBlock consequence → onBlock alternative →
      onExpr (.conditional token condition consequence (some alternative))
  call : ∀ token callee arguments, onExpr callee → (∀ argument ∈ arguments, onExpr argument) →
    onExpr (.call token callee arguments)
  function : ∀ definition, onFunction definition → onExpr (.function definition)
  block : ∀ token statements, (∀ statement ∈ statements, onStmt statement) →
    onBlock ⟨token, statements⟩
  definition : ∀ token name parameters returnType body, onBlock body →
    onFunction ⟨token, name, parameters, returnType, body⟩
  expressionStmt : ∀ token value, onExpr value → onStmt (.expression token value)
  blockStmt : ∀ content, onBlock content → onStmt (.block content)
  varStmt : ∀ token declaredType name value, onExpr value →
    onStmt (.var token declaredType name value)
  retStmt : ∀ token value, onExpr value → onStmt (.ret token value)
  functionStmt : ∀ definition, onFunction definition → onStmt (.function definition)
  entrypointStmt : ∀ token name body, onBlock body → onStmt (.entrypoint token name body)

namespace Hereditary

variable {onExpr : Expr → Prop} {onBlock : Block → Prop} {onFunction : FunctionDefinition → Prop}
variable {onStmt : Stmt → Prop}

mutual

theorem expr (h : Hereditary onExpr onBlock onFunction onStmt) : ∀ e, onExpr e
  | .identifier name => h.identifier name
  | .boolean token value => h.boolean token value
  | .integer token value => h.integer token value
  | .string token value => h.string token value
  | .unary token operator operand => h.unary token operator operand (h.expr operand)
  | .binary token left operator right =>
    h.binary token left operator right (h.expr left) (h.expr right)
  | .conditional token condition consequence none =>
    h.conditional token condition consequence (h.expr condition) (h.body consequence)
  | .conditional token condition consequence (some alternative) =>
    h.alternative token condition consequence alternative (h.expr condition)
      (h.body consequence) (h.body alternative)
  | .call token callee arguments =>
    h.call token callee arguments (h.expr callee) (h.exprs arguments)
  | .function definition => h.function definition (h.functionDefinition definition)
termination_by structural e => e

theorem exprs (h : Hereditary onExpr onBlock onFunction onStmt) :
    ∀ expressions : List Expr, ∀ e ∈ expressions, onExpr e
  | [] => List.forall_mem_nil _
  | first :: others => List.forall_mem_cons.mpr ⟨h.expr first, h.exprs others⟩
termination_by structural expressions => expressions

theorem body (h : Hereditary onExpr onBlock onFunction onStmt) : ∀ block, onBlock block
  | ⟨token, statements⟩ => h.block token statements (h.stmts statements)
termination_by structural block => block

theorem functionDefinition (h : Hereditary onExpr onBlock onFunction onStmt) :
    ∀ definition, onFunction definition
  | ⟨token, name, parameters, returnType, body⟩ =>
    h.definition token name parameters returnType body (h.body body)
termination_by structural definition => definition

theorem stmt (h : Hereditary onExpr onBlock onFunction onStmt) : ∀ statement, onStmt statement
  | .expression token value => h.expressionStmt token value (h.expr value)
  | .block content => h.blockStmt content (h.body content)
  | .var token declaredType name value => h.varStmt token declaredType name value (h.expr value)
  | .ret token value => h.retStmt token value (h.expr value)
  | .function definition => h.functionStmt definition (h.functionDefinition definition)
  | .entrypoint token name body => h.entrypointStmt token name body (h.body body)
termination_by structural statement => statement

theorem stmts (h : Hereditary onExpr onBlock onFunction onStmt) :
    ∀ statements : List Stmt, ∀ statement ∈ statements, onStmt statement
  | [] => List.forall_mem_nil _
  | first :: others => List.forall_mem_cons.mpr ⟨h.stmt first, h.stmts others⟩
termination_by structural statements => statements

end

end Hereditary

end LineScript
