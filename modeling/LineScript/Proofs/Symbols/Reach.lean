import LineScript.Compilation
import LineScript.Proofs.Symbols.Namespace
import LineScript.Proofs.Tree.Faithful
import Mathlib.Data.List.Nodup
import Mathlib.Data.List.Perm.Subperm

/-!
# How far verification reaches

An expression may hold bodies anywhere: a conditional may be an operand, a callee or an argument,
or stand in the condition of another one.  Verification enters a body only if its conditional or
its function is all of the value of a statement.  What stands in other bodies is hidden from it, so
a variable there may have a value of another type than declared, and nothing is said about it.
-/

namespace LineScript

/-! ## Enclosed and hidden statements -/

mutual

/-- The statements in the bodies of an expression, wherever these stand in it, and the functions in
it. -/
def Expr.enclosed : Expr → List Stmt
  | .identifier _ => []
  | .boolean _ _ => []
  | .integer _ _ => []
  | .string _ _ => []
  | .unary _ _ operand => operand.enclosed
  | .binary _ left _ right => left.enclosed ++ right.enclosed
  | .conditional _ condition consequence none => condition.enclosed ++ consequence.enclosed
  | .conditional _ condition consequence (some alternative) =>
    condition.enclosed ++ (consequence.enclosed ++ alternative.enclosed)
  | .call _ callee arguments => callee.enclosed ++ Expr.enclosedInAll arguments
  | .function definition => .function definition :: definition.enclosedInBody
termination_by structural expression => expression

/-- What expressions enclose. -/
def Expr.enclosedInAll : List Expr → List Stmt
  | [] => []
  | expression :: others => expression.enclosed ++ Expr.enclosedInAll others
termination_by structural expressions => expressions

/-- The statements in a block and what these enclose. -/
def Block.enclosed : Block → List Stmt
  | ⟨_, statements⟩ => Stmt.enclosedInAll statements
termination_by structural block => block

/-- The statements in the body of a function and what these enclose. -/
def FunctionDefinition.enclosedInBody : FunctionDefinition → List Stmt
  | ⟨_, _, _, _, body⟩ => body.enclosed
termination_by structural definition => definition

/-- A statement and what it encloses. -/
def Stmt.enclosed : Stmt → List Stmt
  | .var token declaredType name value => .var token declaredType name value :: value.enclosed
  | .function definition => .function definition :: definition.enclosedInBody
  | .entrypoint token name body => .entrypoint token name body :: body.enclosed
  | .expression token value => .expression token value :: value.enclosed
  | .ret token value => .ret token value :: value.enclosed
  | .block content => .block content :: content.enclosed
termination_by structural statement => statement

/-- Statements and what they enclose. -/
def Stmt.enclosedInAll : List Stmt → List Stmt
  | [] => []
  | statement :: others => statement.enclosed ++ Stmt.enclosedInAll others
termination_by structural statements => statements

end

attribute [simp] Expr.enclosed Expr.enclosedInAll Block.enclosed FunctionDefinition.enclosedInBody
attribute [simp] Stmt.enclosed Stmt.enclosedInAll

mutual

/-- What an expression encloses in its operands, in its callee and its arguments and in its
condition, or what is hidden in its bodies. -/
def Expr.hidden : Expr → List Stmt
  | .identifier _ => []
  | .boolean _ _ => []
  | .integer _ _ => []
  | .string _ _ => []
  | .unary _ _ operand => operand.enclosed
  | .binary _ left _ right => left.enclosed ++ right.enclosed
  | .conditional _ condition consequence none => condition.enclosed ++ consequence.hidden
  | .conditional _ condition consequence (some alternative) =>
    condition.enclosed ++ (consequence.hidden ++ alternative.hidden)
  | .call _ callee arguments => callee.enclosed ++ Expr.enclosedInAll arguments
  | .function definition => definition.hidden
termination_by structural expression => expression

/-- What is hidden in the statements of a block. -/
def Block.hidden : Block → List Stmt
  | ⟨_, statements⟩ => Stmt.hiddenInAll statements
termination_by structural block => block

/-- What is hidden in the body of a function. -/
def FunctionDefinition.hidden : FunctionDefinition → List Stmt
  | ⟨_, _, _, _, body⟩ => body.hidden
termination_by structural definition => definition

/-- What is hidden in a statement.  The value of a variable is not entered at all. -/
def Stmt.hidden : Stmt → List Stmt
  | .var _ _ _ value => value.enclosed
  | .function definition => definition.hidden
  | .entrypoint _ _ body => body.hidden
  | .expression _ value => value.hidden
  | .ret _ value => value.hidden
  | .block content => content.hidden
termination_by structural statement => statement

/-- What is hidden in statements. -/
def Stmt.hiddenInAll : List Stmt → List Stmt
  | [] => []
  | statement :: others => statement.hidden ++ Stmt.hiddenInAll others
termination_by structural statements => statements

end

attribute [simp] Expr.hidden Block.hidden FunctionDefinition.hidden Stmt.hidden Stmt.hiddenInAll

theorem perm_append_interchange {α : Type} (first second third fourth : List α) :
    ((first ++ second) ++ (third ++ fourth)).Perm ((first ++ third) ++ (second ++ fourth)) := by
  rw [List.append_assoc, List.append_assoc]
  exact (List.perm_append_comm_assoc second third fourth).append_left first

/-- If each statement encloses what is visited or hidden in it, so do all of them together. -/
theorem Stmt.perm_enclosedInAll {statements : List Stmt}
    (hstatements : ∀ statement ∈ statements,
      statement.enclosed.Perm (statement.visited ++ statement.hidden)) :
    (Stmt.enclosedInAll statements).Perm
      (Stmt.visitedInAll statements ++ Stmt.hiddenInAll statements) := by
  induction statements with
  | nil => exact .nil
  | cons statement others ih =>
      obtain ⟨hstatement, hothers⟩ := List.forall_mem_cons.mp hstatements
      exact (hstatement.append (ih hothers)).trans (perm_append_interchange _ _ _ _)

/-- What a tree encloses is either visited or hidden. -/
theorem hereditary_enclosed :
    Hereditary (fun value => value.enclosed.Perm (value.visited ++ value.hidden))
      (fun block => block.enclosed.Perm (block.visited ++ block.hidden))
      (fun definition => definition.enclosedInBody.Perm
        (definition.visitedInBody ++ definition.hidden))
      (fun statement => statement.enclosed.Perm (statement.visited ++ statement.hidden)) where
  identifier := by simp
  boolean := by simp
  integer := by simp
  string := by simp
  unary := by simp
  binary := by simp
  conditional := by
    intro token condition consequence _ hconsequence
    exact (hconsequence.append_left _).trans (List.perm_append_comm_assoc _ _ _)
  alternative := by
    intro token condition consequence alternative _ hconsequence halternative
    have hbodies := (hconsequence.append halternative).trans (perm_append_interchange _ _ _ _)
    exact (hbodies.append_left _).trans (List.perm_append_comm_assoc _ _ _)
  call := by simp
  function := by
    intro definition hdefinition
    exact hdefinition.cons _
  block := by
    intro token statements hstatements
    exact Stmt.perm_enclosedInAll hstatements
  definition := by
    intro token name parameters returnType body hbody
    exact hbody
  expressionStmt := by
    intro token value hvalue
    exact hvalue.cons _
  blockStmt := by
    intro content hcontent
    exact hcontent.cons _
  varStmt := by simp
  retStmt := by
    intro token value hvalue
    exact hvalue.cons _
  functionStmt := by
    intro definition hdefinition
    exact hdefinition.cons _
  entrypointStmt := by
    intro token name body hbody
    exact hbody.cons _

/-! ## What is visited on the way to a visited statement -/

/-- Whether everything that is visited or hidden in one of the visited statements is visited or
hidden altogether. -/
def IsClosed (visited hidden : List Stmt) : Prop :=
  ∀ statement ∈ visited, statement.visited ⊆ visited ∧ statement.hidden ⊆ hidden

namespace IsClosed

variable {visited hidden moreVisited moreHidden : List Stmt}

theorem nil (hidden : List Stmt) : IsClosed [] hidden :=
  List.forall_mem_nil _

theorem append (h : IsClosed visited hidden) (hmore : IsClosed moreVisited moreHidden) :
    IsClosed (visited ++ moreVisited) (hidden ++ moreHidden) := by
  intro statement hstatement
  rcases List.mem_append.mp hstatement with hfirst | hsecond
  · exact ⟨List.subset_append_of_subset_left _ (h statement hfirst).1,
      List.subset_append_of_subset_left _ (h statement hfirst).2⟩
  · exact ⟨List.subset_append_of_subset_right _ (hmore statement hsecond).1,
      List.subset_append_of_subset_right _ (hmore statement hsecond).2⟩

/-- A condition is hidden in addition to what the bodies hide. -/
theorem behind (h : IsClosed visited hidden) (condition : List Stmt) :
    IsClosed visited (condition ++ hidden) :=
  fun statement hstatement => ⟨(h statement hstatement).1,
    List.subset_append_of_subset_right _ (h statement hstatement).2⟩

/-- A statement in front of all that is visited and hidden in it. -/
theorem cons {statement : Stmt} (h : IsClosed visited hidden)
    (hvisited : statement.visited = statement :: visited) (hhidden : statement.hidden = hidden) :
    IsClosed (statement :: visited) hidden := by
  refine List.forall_mem_cons.mpr ⟨⟨?_, ?_⟩, fun other hother => ⟨?_, (h other hother).2⟩⟩
  · exact hvisited ▸ List.Subset.refl _
  · exact hhidden ▸ List.Subset.refl _
  · exact List.subset_cons_of_subset _ (h other hother).1

/-- The function of an expression and the one of a statement hold the same body. -/
theorem ofFunction {definition : FunctionDefinition}
    (h : IsClosed definition.visitedInBody definition.hidden) :
    IsClosed (.function definition :: definition.visitedInBody) definition.hidden :=
  h.cons rfl rfl

theorem ofAll {statements : List Stmt}
    (hstatements : ∀ statement ∈ statements, IsClosed statement.visited statement.hidden) :
    IsClosed (Stmt.visitedInAll statements) (Stmt.hiddenInAll statements) := by
  induction statements with
  | nil => exact nil _
  | cons statement others ih =>
      obtain ⟨hstatement, hothers⟩ := List.forall_mem_cons.mp hstatements
      exact hstatement.append (ih hothers)

end IsClosed

theorem hereditary_isClosed :
    Hereditary (fun value => IsClosed value.visited value.hidden)
      (fun block => IsClosed block.visited block.hidden)
      (fun definition => IsClosed definition.visitedInBody definition.hidden)
      (fun statement => IsClosed statement.visited statement.hidden) where
  identifier _ := .nil _
  boolean _ _ := .nil _
  integer _ _ := .nil _
  string _ _ := .nil _
  unary _ _ _ _ := .nil _
  binary _ _ _ _ _ _ := .nil _
  conditional _ condition _ _ hconsequence := hconsequence.behind condition.enclosed
  alternative _ condition _ _ _ hconsequence halternative :=
    (hconsequence.append halternative).behind condition.enclosed
  call _ _ _ _ _ := .nil _
  function _ hdefinition := hdefinition.ofFunction
  block _ _ hstatements := .ofAll hstatements
  definition _ _ _ _ _ hbody := hbody
  expressionStmt _ _ hvalue := hvalue.cons rfl rfl
  blockStmt _ hcontent := hcontent.cons rfl rfl
  varStmt _ _ _ _ _ := (IsClosed.nil _).cons rfl rfl
  retStmt _ _ hvalue := hvalue.cons rfl rfl
  functionStmt _ hdefinition := hdefinition.ofFunction
  entrypointStmt _ _ _ hbody := hbody.cons rfl rfl

/-- What is hidden in a program whose bodies are entered. -/
def Program.hidden (program : Program) : List Stmt :=
  Stmt.hiddenInAll program.statements

theorem Program.visited_of_nestedBlocks {checks : Checks} (hnested : checks.nestedBlocks = true)
    (program : Program) : program.visited checks = Stmt.visitedInAll program.statements := by
  rw [Stmt.visitedInAll_eq_flatMap, Program.visited]
  simp only [hnested, if_true]

theorem Program.isClosed {checks : Checks} (hnested : checks.nestedBlocks = true)
    (program : Program) : IsClosed (program.visited checks) program.hidden := by
  rw [program.visited_of_nestedBlocks hnested]
  exact .ofAll fun statement _ => hereditary_isClosed.stmt statement

/-! ## Where variables have their values -/

/-- The token of the value that a statement gives to a variable. -/
def Stmt.valueTokens : Stmt → List Token
  | .var _ _ _ value => [value.token]
  | .function _ | .entrypoint _ _ _ | .expression _ _ | .ret _ _ | .block _ => []

attribute [simp] Stmt.valueTokens

theorem subperm_of_cons {token : Token} {tokens more : List Token}
    (h : (token :: tokens).Subperm more) : tokens.Subperm more :=
  List.Subperm.cons_self.trans h

theorem subperm_enclosedInAll {statements : List Stmt}
    (hstatements : ∀ statement ∈ statements,
      (statement.enclosed.flatMap Stmt.valueTokens).Subperm statement.tokens) :
    ((Stmt.enclosedInAll statements).flatMap Stmt.valueTokens).Subperm
      (Stmt.tokensAll statements) := by
  induction statements with
  | nil => exact List.Subperm.refl _
  | cons statement others ih =>
      obtain ⟨hstatement, hothers⟩ := List.forall_mem_cons.mp hstatements
      rw [Stmt.enclosedInAll, List.flatMap_append]
      exact hstatement.append (ih hothers)

/-- The values of the variables that a tree encloses stand at different tokens of the tree.  An
expression itself stands at one that none of them has. -/
theorem hereditary_valueTokens :
    Hereditary
      (fun value =>
        (value.token :: value.enclosed.flatMap Stmt.valueTokens).Subperm value.tokens)
      (fun block => (block.enclosed.flatMap Stmt.valueTokens).Subperm block.tokens)
      (fun definition =>
        (definition.token :: definition.enclosedInBody.flatMap Stmt.valueTokens).Subperm
          definition.tokens)
      (fun statement =>
        (statement.enclosed.flatMap Stmt.valueTokens).Subperm statement.tokens) where
  identifier _ := List.Subperm.refl _
  boolean _ _ := List.Subperm.refl _
  integer _ _ := List.Subperm.refl _
  string _ _ := List.Subperm.refl _
  unary := by
    intro token operator operand hoperand
    exact (List.subperm_cons token).mpr (subperm_of_cons hoperand)
  binary := by
    intro token left operator right hleft hright
    rw [Expr.enclosed, List.flatMap_append]
    have hoperands := (subperm_of_cons hleft).append (subperm_of_cons hright)
    exact ((List.subperm_cons token).mpr hoperands).trans List.perm_middle.symm.subperm
  conditional := by
    intro token condition consequence hcondition hconsequence
    rw [Expr.enclosed, List.flatMap_append]
    exact (List.subperm_cons token).mpr ((subperm_of_cons hcondition).append hconsequence)
  alternative := by
    intro token condition consequence alternative hcondition hconsequence halternative
    rw [Expr.enclosed, List.flatMap_append, List.flatMap_append, ← List.append_assoc]
    exact (List.subperm_cons token).mpr
      (((subperm_of_cons hcondition).append hconsequence).append halternative)
  call := by
    intro token callee arguments hcallee harguments
    have hall : ((Expr.enclosedInAll arguments).flatMap Stmt.valueTokens).Subperm
        (Expr.tokensAll arguments) := by
      induction arguments with
      | nil => exact List.Subperm.refl _
      | cons argument others ih =>
          obtain ⟨hargument, hothers⟩ := List.forall_mem_cons.mp harguments
          rw [Expr.enclosedInAll, List.flatMap_append]
          exact (subperm_of_cons hargument).append (ih hothers)
    rw [Expr.enclosed, List.flatMap_append]
    have hparts := (subperm_of_cons hcallee).append hall
    exact ((List.subperm_cons token).mpr hparts).trans List.perm_middle.symm.subperm
  function := by
    intro definition hdefinition
    exact hdefinition
  block := by
    intro token statements hstatements
    exact (subperm_enclosedInAll hstatements).cons_right token
  definition := by
    intro token name parameters returnType body hbody
    exact (List.subperm_cons token).mpr
      (hbody.trans (List.sublist_append_right _ _).subperm)
  expressionStmt := by
    intro token value hvalue
    exact subperm_of_cons hvalue
  blockStmt := by
    intro content hcontent
    exact hcontent
  varStmt := by
    intro token declaredType name value hvalue
    exact ((hvalue.cons_right name.token).cons_right declaredType.token).cons_right token
  retStmt := by
    intro token value hvalue
    exact (subperm_of_cons hvalue).cons_right token
  functionStmt := by
    intro definition hdefinition
    exact subperm_of_cons hdefinition
  entrypointStmt := by
    intro token name body hbody
    exact (hbody.cons_right name.token).cons_right token

/-- A variable that is hidden has its value where no visited one has it. -/
theorem Program.disjoint_valuePositions {checks : Checks} (hnested : checks.nestedBlocks = true)
    {program : Program} (hpositions : (program.tokens.map Token.position).Nodup) :
    List.Disjoint (((program.visited checks).flatMap Stmt.valueTokens).map Token.position)
      ((program.hidden.flatMap Stmt.valueTokens).map Token.position) := by
  have hperm : (Stmt.enclosedInAll program.statements).Perm
      (program.visited checks ++ program.hidden) := by
    rw [program.visited_of_nestedBlocks hnested]
    exact Stmt.perm_enclosedInAll fun statement _ => hereditary_enclosed.stmt statement
  have hsubperm : ((Stmt.enclosedInAll program.statements).flatMap Stmt.valueTokens).Subperm
      program.tokens :=
    subperm_enclosedInAll fun statement _ => hereditary_valueTokens.stmt statement
  obtain ⟨tokens, htokens, hsublist⟩ := hsubperm
  have hnodup : (tokens.map Token.position).Nodup :=
    hpositions.sublist (hsublist.map Token.position)
  have hparts := (htokens.trans (hperm.flatMap_right Stmt.valueTokens)).map Token.position
  rw [hparts.nodup_iff, List.flatMap_append, List.map_append] at hnodup
  exact List.disjoint_of_nodup_append hnodup

/-! ## Mismatches -/

/-- Whether a value is found to be of another type than declared. -/
def Diagnostic.isMismatch (diagnostic : Diagnostic) : Bool :=
  match diagnostic.cause with
  | .typeMismatch _ _ _ => true
  | _ => false

/-- What is wrong with the value that a definition gives to a variable. -/
def Definition.mismatches : Definition → List Diagnostic
  | .variable declaredType name value => SymbolTable.mismatch declaredType name value
  | .function _ | .entrypoint _ => []

/-- What is wrong with the value that a statement gives to a variable. -/
def Stmt.mismatches (statement : Stmt) : List Diagnostic :=
  statement.ownDefinitions.flatMap Definition.mismatches

theorem SymbolTable.eq_of_mem_mismatch {declaredType : TypeName} {name : Name} {value : Expr}
    {diagnostic : Diagnostic} (h : diagnostic ∈ mismatch declaredType name value) :
    diagnostic = ⟨.typeMismatch name.text declaredType.text value.literalType,
      value.token.position⟩ := by
  unfold mismatch at h
  split at h
  · simp at h
  · exact List.mem_singleton.mp h

theorem Stmt.exists_of_mem_mismatches {statement : Stmt} {diagnostic : Diagnostic}
    (h : diagnostic ∈ statement.mismatches) :
    diagnostic.isMismatch ∧
      diagnostic.position ∈ statement.valueTokens.map Token.position := by
  cases statement with
  | var token declaredType name value =>
      have hmem : diagnostic ∈ SymbolTable.mismatch declaredType name value := by
        simpa [mismatches, Definition.mismatches] using h
      rw [SymbolTable.eq_of_mem_mismatch hmem]
      exact ⟨rfl, List.mem_singleton.mpr rfl⟩
  | _ => simp [mismatches, Definition.mismatches] at h

/-- Apart from what is found about its name, only a mismatch is found about a definition. -/
theorem Definition.filter_complaints (checks : Checks) (taken : Bool) (definition : Definition) :
    (definition.complaints checks taken).filter Diagnostic.isMismatch = definition.mismatches := by
  have hretaken (name : Name) : (retaken taken name).filter Diagnostic.isMismatch = [] := by
    cases taken <;> rfl
  rcases definition with ⟨declaredType, name, value⟩ | function | entrypoint
  · have hmismatch : (SymbolTable.mismatch declaredType name value).filter
        Diagnostic.isMismatch = SymbolTable.mismatch declaredType name value := by
      refine List.filter_eq_self.mpr fun diagnostic hdiagnostic => ?_
      rw [SymbolTable.eq_of_mem_mismatch hdiagnostic]
      rfl
    rw [complaints, List.filter_append, hretaken, List.nil_append]
    exact hmismatch
  · by_cases hchecked : checks.functionSignatures = true
    · rw [complaints, if_pos hchecked, hretaken]
      rfl
    · rw [complaints, if_neg hchecked]
      rfl
  · rw [complaints, List.filter_append, hretaken, List.append_nil]
    split <;> rfl

theorem SymbolTable.filter_checkAll (checks : Checks) (table : SymbolTable)
    (definitions : List Definition) :
    (table.checkAll checks definitions).diagnostics.filter Diagnostic.isMismatch =
      definitions.flatMap Definition.mismatches := by
  induction definitions generalizing table with
  | nil => rfl
  | cons definition others ih =>
      rw [diagnostics_checkAll_cons, List.filter_append, ih, diagnostics_check,
        definition.filter_complaints, List.flatMap_cons]

/-- The mismatches that are found are those of the visited statements, in their order. -/
theorem filter_verify (checks : Checks) (program : Program) :
    (verify checks program).diagnostics.filter Diagnostic.isMismatch =
      (program.visited checks).flatMap Stmt.mismatches := by
  rw [verify, SymbolTable.verifyProgram_eq_checkAll, SymbolTable.filter_checkAll,
    List.flatMap_assoc]
  rfl

theorem mem_verify_iff_of_isMismatch {checks : Checks} {program : Program}
    {diagnostic : Diagnostic} (h : diagnostic.isMismatch) :
    diagnostic ∈ (verify checks program).diagnostics ↔
      ∃ statement ∈ program.visited checks, diagnostic ∈ statement.mismatches := by
  rw [← List.mem_flatMap, ← filter_verify, List.mem_filter]
  exact ⟨fun hmem => ⟨hmem, h⟩, And.left⟩

/-! ## Variables within a value -/

/-- The value of an expression statement or a return statement. -/
def Stmt.value? : Stmt → Option Expr
  | .expression _ value => some value
  | .ret _ value => some value
  | .var _ _ _ _ | .function _ | .entrypoint _ _ _ | .block _ => none

/-- What is visited or hidden in the value of a visited statement is visited or hidden in the
program. -/
theorem subset_of_value? {checks : Checks} (hnested : checks.nestedBlocks = true)
    {program : Program} {statement : Stmt} {value : Expr}
    (hstatement : statement ∈ program.visited checks) (hvalue : statement.value? = some value) :
    value.visited ⊆ program.visited checks ∧ value.hidden ⊆ program.hidden := by
  have hparts : statement.visited = statement :: value.visited ∧
      statement.hidden = value.hidden := by
    cases statement with
    | expression token content =>
        cases hvalue
        exact ⟨rfl, rfl⟩
    | ret token content =>
        cases hvalue
        exact ⟨rfl, rfl⟩
    | _ => cases hvalue
  obtain ⟨hvisited, hhidden⟩ := program.isClosed hnested statement hstatement
  rw [hparts.1] at hvisited
  rw [hparts.2] at hhidden
  exact ⟨List.Subset.trans (List.subset_cons_self _ _) hvisited, hhidden⟩

/-- A variable somewhere within the value of a visited statement has a value of another type than
declared.  This is found if the variable is visited, so if all conditionals and functions around
it are all of the value of their statements.  If the tokens of the program stand at different
positions, it is found in no other case. -/
theorem mismatch_mem_verify {checks : Checks} (hnested : checks.nestedBlocks = true)
    {program : Program} {statement enclosed : Stmt} {value : Expr} {diagnostic : Diagnostic}
    (hstatement : statement ∈ program.visited checks) (hvalue : statement.value? = some value)
    (henclosed : enclosed ∈ value.enclosed) (hdiagnostic : diagnostic ∈ enclosed.mismatches) :
    (enclosed ∈ value.visited → diagnostic ∈ (verify checks program).diagnostics) ∧
      ((program.tokens.map Token.position).Nodup →
        (diagnostic ∈ (verify checks program).diagnostics ↔ enclosed ∈ value.visited)) := by
  obtain ⟨hismatch, hposition⟩ := Stmt.exists_of_mem_mismatches hdiagnostic
  obtain ⟨hvisited, hhidden⟩ := subset_of_value? hnested hstatement hvalue
  have hfound (hmem : enclosed ∈ value.visited) :
      diagnostic ∈ (verify checks program).diagnostics :=
    (mem_verify_iff_of_isMismatch hismatch).mpr ⟨enclosed, hvisited hmem, hdiagnostic⟩
  refine ⟨hfound, fun hpositions => ⟨fun hmem => ?_, hfound⟩⟩
  obtain ⟨other, hother, hotherDiagnostic⟩ := (mem_verify_iff_of_isMismatch hismatch).mp hmem
  have hotherPosition := (Stmt.exists_of_mem_mismatches hotherDiagnostic).2
  have hparts := (hereditary_enclosed.expr value).subset henclosed
  refine (List.mem_append.mp hparts).resolve_right fun hmemHidden => ?_
  -- the same diagnostic would point at two values at once
  have hdisjoint := program.disjoint_valuePositions hnested hpositions
  rw [List.map_flatMap, List.map_flatMap] at hdisjoint
  exact hdisjoint (List.mem_flatMap.mpr ⟨other, hother, hotherPosition⟩)
    (List.mem_flatMap.mpr ⟨enclosed, hhidden hmemHidden, hposition⟩)

/-- What `var int x = true` stands for. -/
def trueAsInt (column : UInt32) : Stmt :=
  .var ⟨.kwVar, "var", ⟨1, column⟩⟩ (.ofToken ⟨.typeName, "int", ⟨1, column + 4⟩⟩)
    (.ofToken ⟨.identifier, "x", ⟨1, column + 8⟩⟩)
    (.boolean ⟨.trueLiteral, "true", ⟨1, column + 12⟩⟩ true)

/-- What `if (a) { var int x = true }` stands for. -/
def guardedTrueAsInt (column : UInt32) : Expr :=
  .conditional ⟨.kwIf, "if", ⟨1, column⟩⟩
    (.identifier (.ofToken ⟨.identifier, "a", ⟨1, column + 4⟩⟩))
    ⟨⟨.openCurly, "\x7b", ⟨1, column + 7⟩⟩, [trueAsInt (column + 9)]⟩ none

/-- A conditional that is all of the value of its statement. -/
def guardedAlone : Program :=
  ⟨[.expression ⟨.kwIf, "if", ⟨1, 1⟩⟩ (guardedTrueAsInt 1)]⟩

theorem mismatch_mem_verify_guardedAlone :
    (∃ statement ∈ guardedAlone.visited .strict, statement.value? = some (guardedTrueAsInt 1)) ∧
      trueAsInt 10 ∈ (guardedTrueAsInt 1).enclosed ∧
      (guardedAlone.tokens.map Token.position).Nodup ∧
      ⟨.typeMismatch "x" "int" "bool", ⟨1, 22⟩⟩ ∈ (verify .strict guardedAlone).diagnostics := by
  have hstatement : Stmt.expression ⟨.kwIf, "if", ⟨1, 1⟩⟩ (guardedTrueAsInt 1) ∈
      guardedAlone.visited .strict := .head _
  have henclosed : trueAsInt 10 ∈ (guardedTrueAsInt 1).enclosed := .head _
  have hdiagnostic : ⟨.typeMismatch "x" "int" "bool", ⟨1, 22⟩⟩ ∈ (trueAsInt 10).mismatches := by
    decide
  have hpositions : (guardedAlone.tokens.map Token.position).Nodup := by decide
  obtain ⟨-, hiff⟩ := mismatch_mem_verify rfl hstatement rfl henclosed hdiagnostic
  exact ⟨⟨_, hstatement, rfl⟩, henclosed, hpositions, (hiff hpositions).mpr (.head _)⟩

/-- The same conditional as an operand. -/
def guardedOperand : Program :=
  ⟨[.expression ⟨.integer, "1", ⟨1, 1⟩⟩
    (.binary ⟨.plus, "+", ⟨1, 3⟩⟩ (.integer ⟨.integer, "1", ⟨1, 1⟩⟩ 1) "+" (guardedTrueAsInt 5))]⟩

/-- All checks are made, and the mismatch in the operand is not found. -/
theorem compile_guardedOperand :
    compile .strict "1 + if (a) \x7b var int x = true \x7d" = .ok ⟨guardedOperand, [], []⟩ ∧
      ∃ statement ∈ guardedOperand.visited .strict, ∃ value,
        statement.value? = some value ∧
          ∃ enclosed ∈ value.enclosed, ∃ diagnostic ∈ enclosed.mismatches,
            diagnostic ∉ (verify .strict guardedOperand).diagnostics := by
  have htokens : tokenize "1 + if (a) \x7b var int x = true \x7d" =
      .ok [⟨.integer, "1", ⟨1, 1⟩⟩, ⟨.plus, "+", ⟨1, 3⟩⟩, ⟨.kwIf, "if", ⟨1, 5⟩⟩,
        ⟨.openParen, "(", ⟨1, 8⟩⟩, ⟨.identifier, "a", ⟨1, 9⟩⟩, ⟨.closeParen, ")", ⟨1, 10⟩⟩,
        ⟨.openCurly, "\x7b", ⟨1, 12⟩⟩, ⟨.kwVar, "var", ⟨1, 14⟩⟩, ⟨.typeName, "int", ⟨1, 18⟩⟩,
        ⟨.identifier, "x", ⟨1, 22⟩⟩, ⟨.assignment, "=", ⟨1, 24⟩⟩, ⟨.trueLiteral, "true", ⟨1, 26⟩⟩,
        ⟨.closeCurly, "\x7d", ⟨1, 31⟩⟩, .endAt ⟨1, 31⟩] := by
    decide +kernel
  refine ⟨?_, _, .head _, _, rfl, trueAsInt 14, .head _,
    ⟨.typeMismatch "x" "int" "bool", ⟨1, 26⟩⟩, by decide, List.not_mem_nil⟩
  rw [compile, htokens]
  rfl

end LineScript
