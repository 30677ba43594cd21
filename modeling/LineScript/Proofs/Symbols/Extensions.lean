import LineScript.Proofs.Symbols.Checking
import Mathlib.Data.List.Basic
import Mathlib.Data.List.Flatten

/-!
# Further checks hide nothing

With more checks more definitions are visited and more names are defined, so definitions may be
refused that fewer checks accept, and a name may stand for something else.  Still, what fewer
checks complain about is complained about with more of them, in the same order.
-/

namespace LineScript

open List (Sublist)

variable {checks more : Checks} {table larger : SymbolTable} {definition : Definition}

/-- Every check of the first is one of the second. -/
instance : LE Checks where
  le checks more :=
    (checks.functionSignatures → more.functionSignatures) ∧
      (checks.nestedBlocks → more.nestedBlocks)

instance (checks more : Checks) : Decidable (checks ≤ more) :=
  inferInstanceAs (Decidable (_ ∧ _))

namespace Definition

theorem IsAttempt.mono (h : checks ≤ more) (hattempt : definition.IsAttempt checks) :
    definition.IsAttempt more := by
  rcases definition with ⟨declaredType, declared, value⟩ | function | entrypoint
  · trivial
  · exact h.1 hattempt
  · exact hattempt

theorem sublist_retaken {taken taken' : Bool} (h : taken → taken') (name : Name) :
    Sublist (retaken taken name) (retaken taken' name) := by
  unfold retaken
  by_cases htaken : taken = true
  · rw [if_pos htaken, if_pos (h htaken)]
  · rw [if_neg htaken]
    exact List.nil_sublist _

/-- A definition whose name is taken in the first case, and then also in the second, meets all
complaints of the first case in the second. -/
theorem sublist_complaints (h : checks ≤ more) {taken taken' : Bool} (htaken : taken → taken')
    (definition : Definition) :
    Sublist (definition.complaints checks taken) (definition.complaints more taken') := by
  rcases definition with ⟨declaredType, declared, value⟩ | function | entrypoint
  · exact (sublist_retaken htaken declared).append (List.Sublist.refl _)
  · by_cases hchecked : checks.functionSignatures = true
    · simpa [complaints, hchecked, h.1 hchecked] using sublist_retaken htaken function.name
    · simp [complaints, hchecked]
  · exact (List.Sublist.refl _).append (sublist_retaken htaken entrypoint)

end Definition

namespace SymbolTable

/-- Every name of the first table is defined in the second, maybe as something else. -/
def NamesWithin (table larger : SymbolTable) : Prop :=
  ∀ name, table.contains name → larger.contains name

theorem NamesWithin.check (h : checks ≤ more) (hnames : table.NamesWithin larger)
    (definition : Definition) :
    (table.check checks definition).symbols.NamesWithin
      (larger.check more definition).symbols := by
  intro name
  simp only [contains_check, Bool.or_eq_true, decide_eq_true_eq]
  exact Or.imp (hnames name) fun hattempt => ⟨hattempt.1.mono h, hattempt.2⟩

/-- A definition that only the second checks visit adds names at most. -/
theorem NamesWithin.check_right (hnames : table.NamesWithin larger) (definition : Definition) :
    table.NamesWithin (larger.check more definition).symbols := by
  intro name hname
  simp [contains_check, hnames name hname]

theorem NamesWithin.checkAll (h : checks ≤ more) (hnames : table.NamesWithin larger)
    {definitions others : List Definition} (hsub : Sublist definitions others) :
    Sublist (table.checkAll checks definitions).diagnostics
        (larger.checkAll more others).diagnostics ∧
      (table.checkAll checks definitions).symbols.NamesWithin
        (larger.checkAll more others).symbols := by
  induction hsub generalizing table larger with
  | slnil => exact ⟨.slnil, hnames⟩
  | cons definition _ ih =>
      obtain ⟨hdiagnostics, hsymbols⟩ := ih (hnames.check_right definition)
      exact ⟨hdiagnostics.trans (List.sublist_append_right _ _), hsymbols⟩
  | cons_cons definition _ ih =>
      obtain ⟨hdiagnostics, hsymbols⟩ := ih (hnames.check h definition)
      refine ⟨?_, hsymbols⟩
      rw [diagnostics_checkAll_cons, diagnostics_checkAll_cons, diagnostics_check,
        diagnostics_check]
      exact (Definition.sublist_complaints h (hnames _) definition).append hdiagnostics

end SymbolTable

/-! ## Visited definitions -/

theorem Stmt.sublist_definitions (statement : Stmt) :
    Sublist statement.ownDefinitions statement.definitions := by
  rcases statement with _ | _ | _ | _ | ⟨⟨token, name, parameters, returnType, body⟩⟩ | _ <;>
    simp [ownDefinitions, definitions, FunctionDefinition.definitions]

theorem Stmt.sublist_checkedDefinitions (h : checks ≤ more) (statement : Stmt) :
    Sublist (statement.checkedDefinitions checks) (statement.checkedDefinitions more) := by
  unfold checkedDefinitions
  by_cases hnested : checks.nestedBlocks = true
  · rw [if_pos hnested, if_pos (h.2 hnested)]
  · rw [if_neg hnested]
    split
    · exact statement.sublist_definitions
    · exact List.Sublist.refl _

/-- Further checks add diagnostics between those that are there without them, and leave every
name defined that is defined without them. -/
theorem verify_mono (h : checks ≤ more) (program : Program) :
    Sublist (verify checks program).diagnostics (verify more program).diagnostics ∧
      ∀ name, (verify checks program).symbols.contains name →
        (verify more program).symbols.contains name := by
  have hempty : SymbolTable.empty.NamesWithin SymbolTable.empty := fun _ => id
  exact hempty.checkAll h
    (List.Sublist.flatMap_right _ fun statement _ => statement.sublist_checkedDefinitions h)

/-- A function and a variable of the same name: the tokens of `func x() {}` and, on the next
line, `var int x = true`. -/
def functionAndVariable : Program :=
  ⟨[.function ⟨⟨.kwFunc, "func", ⟨1, 1⟩⟩, .ofToken ⟨.identifier, "x", ⟨1, 6⟩⟩, [], none,
      ⟨⟨.openCurly, "\x7b", ⟨1, 10⟩⟩, []⟩⟩,
    .var ⟨.kwVar, "var", ⟨2, 1⟩⟩ (.ofToken ⟨.typeName, "int", ⟨2, 5⟩⟩)
      (.ofToken ⟨.identifier, "x", ⟨2, 9⟩⟩) (.boolean ⟨.trueLiteral, "true", ⟨2, 13⟩⟩ true)]⟩

/-- With all checks the variable is refused, but its mismatch is still found. -/
theorem verify_mono_functionAndVariable :
    Checks.basic ≤ Checks.strict ∧
      Sublist (verify .basic functionAndVariable).diagnostics
        (verify .strict functionAndVariable).diagnostics ∧
      (verify .strict functionAndVariable).symbols.contains "x" ∧
      (verify .strict functionAndVariable).symbols.find? "x" ≠
        (verify .basic functionAndVariable).symbols.find? "x" := by
  have hle : Checks.basic ≤ Checks.strict := by decide
  obtain ⟨hdiagnostics, hnames⟩ := verify_mono hle functionAndVariable
  exact ⟨hle, hdiagnostics, hnames "x" (by decide), by decide⟩

end LineScript
