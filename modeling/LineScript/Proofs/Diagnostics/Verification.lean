import LineScript.Proofs.Diagnostics.Parsing
import LineScript.Proofs.Parsing.Provenance
import LineScript.Proofs.Symbols.Extensions
import LineScript.Proofs.Tree.Induction
import Mathlib.Data.List.Flatten

/-!
# Diagnostics come in source order

Verification visits the definitions of a tree in the order of their tokens, and complains about
a definition at its name and then at its value.  The tokens of a tree come in the order of its
source, whatever is wrong with it.  So neither the diagnostics of parsing nor those of
verification ever step back in the source.
-/

namespace LineScript

open List (Sublist)

variable {checks : Checks}

/-! ## Where definitions are complained about -/

namespace Definition

/-- The tokens at which a definition is complained about. -/
def places : Definition → List Token
  | .variable _ name value => [name.token, value.token]
  | .function definition => [definition.name.token]
  | .entrypoint name => [name.token]

theorem inOrder_retaken (taken : Bool) (name : Name) :
    InOrder [name.token] (retaken taken name) := by
  apply InOrder.singleton
  unfold retaken
  split <;> simp

theorem inOrder_complaints (checks : Checks) (taken : Bool) (definition : Definition) :
    InOrder definition.places (definition.complaints checks taken) := by
  rcases definition with ⟨declaredType, name, value⟩ | function | entrypoint
  · have hvalue : InOrder [value.token]
        (if value.literalType = declaredType.text then []
          else [⟨.typeMismatch name.text declaredType.text value.literalType,
            value.token.position⟩]) := by
      apply InOrder.singleton
      split <;> simp
    exact (inOrder_retaken taken name).append hvalue
  · by_cases hchecked : checks.functionSignatures = true
    · rw [complaints, if_pos hchecked]
      exact inOrder_retaken taken function.name
    · rw [complaints, if_neg hchecked]
      exact .nil _
  · apply InOrder.singleton
    simp only [complaints, retaken]
    split <;> split <;> simp

end Definition

theorem SymbolTable.inOrder_checkAll (checks : Checks) (table : SymbolTable)
    (definitions : List Definition) :
    InOrder (definitions.flatMap Definition.places)
      (table.checkAll checks definitions).diagnostics := by
  induction definitions generalizing table with
  | nil => exact .nil _
  | cons definition others ih =>
      rw [diagnostics_checkAll_cons, diagnostics_check]
      exact (definition.inOrder_complaints checks _).append (ih _)

/-! ## These places are tokens of the tree -/

theorem Expr.sublist_token (value : Expr) : Sublist [value.token] value.tokens := by
  cases value with
  | conditional _ _ _ alternative => cases alternative <;> simp [Expr.token]
  | function definition =>
      obtain ⟨_, _, _, _, _⟩ := definition
      simp [Expr.token]
  | _ => simp [Expr.token]

/-- The definitions in a tree are complained about at its tokens, in their order. -/
theorem hereditary_places :
    Hereditary (fun value => Sublist (value.definitions.flatMap Definition.places) value.tokens)
      (fun block => Sublist (block.definitions.flatMap Definition.places) block.tokens)
      (fun definition => Sublist (definition.definitions.flatMap Definition.places)
        definition.tokens)
      (fun statement => Sublist (statement.definitions.flatMap Definition.places)
        statement.tokens) where
  identifier := by simp [Expr.definitions]
  boolean := by simp [Expr.definitions]
  integer := by simp [Expr.definitions]
  string := by simp [Expr.definitions]
  unary := by simp [Expr.definitions]
  binary := by simp [Expr.definitions]
  conditional := by
    intro token condition consequence _ hconsequence
    exact hconsequence.trans (List.sublist_append_right _ _)
  alternative := by
    intro token condition consequence alternative _ hconsequence halternative
    rw [Expr.definitions, List.flatMap_append]
    exact (hconsequence.trans (List.sublist_append_right _ _)).append halternative
  call := by simp [Expr.definitions]
  function := by
    intro definition hdefinition
    exact hdefinition
  block := by
    intro token statements hstatements
    have hall : Sublist ((Stmt.definitionsOfAll statements).flatMap Definition.places)
        (Stmt.tokensAll statements) := by
      induction statements with
      | nil => exact .slnil
      | cons statement others ih =>
          obtain ⟨hstatement, hothers⟩ := List.forall_mem_cons.mp hstatements
          rw [Stmt.definitionsOfAll, List.flatMap_append]
          exact hstatement.append (ih hothers)
    exact hall.cons token
  definition := by
    intro token name parameters returnType body hbody
    exact ((hbody.trans (List.sublist_append_right _ _)).cons_cons name.token).cons token
  expressionStmt := by
    intro token value hvalue
    exact hvalue
  blockStmt := by
    intro content hcontent
    exact hcontent
  varStmt := by
    intro token declaredType name value _
    exact ((value.sublist_token.cons_cons name.token).cons declaredType.token).cons token
  retStmt := by
    intro token value hvalue
    exact hvalue.cons token
  functionStmt := by
    intro definition hdefinition
    exact hdefinition
  entrypointStmt := by
    intro token name body hbody
    exact (hbody.cons_cons name.token).cons token

theorem Stmt.sublist_places (checks : Checks) (statement : Stmt) :
    Sublist ((statement.checkedDefinitions checks).flatMap Definition.places) statement.tokens := by
  unfold checkedDefinitions
  split
  · exact hereditary_places.stmt statement
  · exact (statement.sublist_definitions.flatMap _).trans (hereditary_places.stmt statement)

theorem Program.sublist_places (checks : Checks) (program : Program) :
    Sublist ((program.statements.flatMap (·.checkedDefinitions checks)).flatMap Definition.places)
      program.tokens := by
  obtain ⟨statements⟩ := program
  unfold Program.tokens
  induction statements with
  | nil => exact .slnil
  | cons statement others ih =>
      rw [List.flatMap_cons, List.flatMap_append]
      exact (statement.sublist_places checks).append ih

/-- The diagnostics of verification stand at tokens of the tree and come in their order. -/
theorem inOrder_verify (checks : Checks) (program : Program) :
    InOrder program.tokens (verify checks program).diagnostics :=
  (SymbolTable.empty.inOrder_checkAll checks _).sublist (program.sublist_places checks)

/-! ## The order of a source is kept -/

namespace Cursor

/-- The end of input that closes a list stands at its last token. -/
theorem exists_position_of_mem_closed {last token : Token} {others : List Token}
    (h : token ∈ closed last others) :
    ∃ other ∈ last :: others, token.position = other.position := by
  induction others generalizing last with
  | nil =>
      unfold closed at h
      split at h
      · cases h
      · exact ⟨last, by simp, by rw [List.mem_singleton.mp h, Token.endAt]⟩
  | cons next rest ih =>
      rcases List.mem_cons.mp h with rfl | hrest
      · exact ⟨token, by simp, rfl⟩
      · obtain ⟨other, hother, hposition⟩ := ih hrest
        exact ⟨other, List.mem_cons_of_mem _ hother, hposition⟩

theorem ascending_closed {first : Token} {others : List Token}
    (h : Token.Ascending (first :: others)) : Token.Ascending (first :: closed first others) := by
  induction others generalizing first with
  | nil =>
      refine List.pairwise_cons.mpr ⟨fun token htoken => ?_, ?_⟩
      · obtain ⟨other, hother, hposition⟩ := exists_position_of_mem_closed htoken
        rw [hposition, List.mem_singleton.mp hother]
        exact Position.le_refl _
      · unfold closed
        split <;> simp
  | cons next rest ih =>
      refine List.pairwise_cons.mpr ⟨fun token htoken => ?_, ih h.of_cons⟩
      obtain ⟨other, hother, hposition⟩ :
          ∃ other ∈ next :: rest, token.position = other.position := by
        rcases List.mem_cons.mp htoken with rfl | hrest
        · exact ⟨token, by simp, rfl⟩
        · exact exists_position_of_mem_closed hrest
      rw [hposition]
      exact List.rel_of_pairwise_cons h hother

theorem ascending_ofTokens {list : List Token} (h : Token.Ascending list) :
    Token.Ascending (ofTokens list).tokens := by
  cases list with
  | nil => simp [ofTokens, tokens, Token.Ascending]
  | cons first others => exact ascending_closed h

end Cursor

/-- The tokens of the tree that is read from a list are proper tokens of the list, in its order. -/
theorem sublist_proper_parse (list : List Token) :
    (parse list).program.tokens.Sublist (proper list) := by
  obtain ⟨last, -, hgathers, -, -⟩ := exists_gathers_parse list
  rw [← Cursor.proper_ofTokens]
  exact (List.sublist_append_left _ (proper last.tokens)).trans hgathers.sublist

theorem ascending_parse {list : List Token}
    (hend : ∀ token ∈ list.dropLast, token.kind ≠ .endOfInput) (hlist : Token.Ascending list) :
    Diagnostic.Ascending (parse list).diagnostics :=
  (inOrder_parse hend).ascending (Cursor.ascending_ofTokens hlist)

theorem ascending_verify {list : List Token} (hlist : Token.Ascending list) (checks : Checks) :
    Diagnostic.Ascending (verify checks (parse list).program).diagnostics := by
  have hverify := inOrder_verify checks (parse list).program
  exact (hverify.sublist ((sublist_proper_parse list).trans List.filter_sublist)).ascending hlist

/-- What is wrong with a program is found in the order of its source, first by parsing and then,
whatever is checked, by verification. -/
theorem diagnostics_ascending {list : List Token}
    (hend : ∀ token ∈ list.dropLast, token.kind ≠ .endOfInput) (hlist : Token.Ascending list) :
    Diagnostic.Ascending (parse list).diagnostics ∧
      ∀ checks, Diagnostic.Ascending (verify checks (parse list).program).diagnostics :=
  ⟨ascending_parse hend hlist, ascending_verify hlist⟩

/-- A closing parenthesis, on the next line `var int x = true`, and on the last one `var`. -/
def strayAndMismatch : List Token :=
  [⟨.closeParen, ")", ⟨1, 1⟩⟩, ⟨.newline, "\n", ⟨1, 2⟩⟩,
    ⟨.kwVar, "var", ⟨2, 1⟩⟩, ⟨.typeName, "int", ⟨2, 5⟩⟩, ⟨.identifier, "x", ⟨2, 9⟩⟩,
    ⟨.assignment, "=", ⟨2, 11⟩⟩, ⟨.trueLiteral, "true", ⟨2, 13⟩⟩, ⟨.newline, "\n", ⟨2, 17⟩⟩,
    ⟨.kwVar, "var", ⟨3, 1⟩⟩, .endAt ⟨3, 3⟩]

/-- Two broken statements with a mismatch between them. -/
theorem diagnostics_ascending_strayAndMismatch :
    (∀ token ∈ strayAndMismatch.dropLast, token.kind ≠ .endOfInput) ∧
      Token.Ascending strayAndMismatch ∧
      Diagnostic.Ascending (parse strayAndMismatch).diagnostics ∧
      (parse strayAndMismatch).diagnostics.map Diagnostic.position = [⟨1, 1⟩, ⟨3, 3⟩] ∧
      Diagnostic.Ascending (verify .basic (parse strayAndMismatch).program).diagnostics ∧
      (verify .basic (parse strayAndMismatch).program).diagnostics.map Diagnostic.position =
        [⟨2, 13⟩] := by
  have hend : ∀ token ∈ strayAndMismatch.dropLast, token.kind ≠ .endOfInput := by decide
  have hlist : Token.Ascending strayAndMismatch := by decide
  obtain ⟨hparse, hverify⟩ := diagnostics_ascending hend hlist
  exact ⟨hend, hlist, hparse, rfl, hverify .basic, rfl⟩

end LineScript
