import LineScript.Proofs.Symbols.Reach

/-!
# Independent statements

The check of a statement asks the symbol table about the names that are defined in the statement
and about no others, and only these names may be new in the table afterwards.  So statements
without a common name do not notice each other, and it does not matter which one is checked first.
-/

namespace LineScript

/-! ## The names of a statement -/

/-- The names of the variables, functions and entrypoints that are defined in a statement, wherever
in it they stand. -/
def Stmt.definedNames (statement : Stmt) : List String :=
  (statement.enclosed.flatMap Stmt.ownDefinitions).map (·.name.text)

/-- Whatever the checks are, only definitions that stand in a statement are checked. -/
theorem Stmt.mem_definedNames {checks : Checks} {statement : Stmt} {definition : Definition}
    (h : definition ∈ statement.checkedDefinitions checks) :
    definition.name.text ∈ statement.definedNames := by
  rw [checkedDefinitions_eq] at h
  obtain ⟨visited, hvisited, hdefinition⟩ := List.mem_flatMap.mp h
  have henclosed : visited ∈ statement.enclosed := by
    split at hvisited
    · exact (hereditary_enclosed.stmt statement).symm.subset (List.mem_append_left _ hvisited)
    · rw [List.mem_singleton.mp hvisited]
      cases statement <;> exact List.mem_cons_self
  exact List.mem_map_of_mem (List.mem_flatMap.mpr ⟨visited, henclosed, hdefinition⟩)

namespace SymbolTable

variable {checks : Checks} {table other : SymbolTable} {definitions others : List Definition}
variable {name : String}

/-! ## What a check takes from the table and what it leaves there -/

/-- What becomes of a name depends only on what it stood for. -/
theorem find?_checkAll_congr (h : table.find? name = other.find? name) :
    (table.checkAll checks definitions).symbols.find? name =
      (other.checkAll checks definitions).symbols.find? name := by
  rw [find?_checkAll, find?_checkAll, h]

/-- A name that none of the definitions has stands for what it stood for. -/
theorem find?_checkAll_of_forall_ne (h : ∀ definition ∈ definitions, definition.name.text ≠ name) :
    (table.checkAll checks definitions).symbols.find? name = table.find? name := by
  have hnone : definitions.find? (·.Attempts checks name) = none := by
    rw [List.find?_eq_none]
    intro definition hdefinition hattempts
    exact h definition hdefinition (of_decide_eq_true hattempts).2
  rw [find?_checkAll, hnone, Option.map_none, Option.or_none]

theorem contains_checkAll_of_forall_ne
    (h : ∀ definition ∈ definitions, definition.name.text ≠ name) :
    (table.checkAll checks definitions).symbols.contains name = table.contains name := by
  rw [contains, contains, find?_checkAll_of_forall_ne h]

/-- A name that is taken keeps what it stands for, and a name is new only if one of the definitions
has it. -/
theorem find?_checkAll_eq_or :
    (table.checkAll checks definitions).symbols.find? name = table.find? name ∨
      table.find? name = none ∧ ∃ definition ∈ definitions, definition.name.text = name := by
  by_cases htaken : (table.find? name).isSome
  · rw [find?_checkAll, Option.or_of_isSome htaken]
    exact .inl rfl
  · by_cases hdefined : ∃ definition ∈ definitions, definition.name.text = name
    · exact .inr ⟨Option.not_isSome_iff_eq_none.mp htaken, hdefined⟩
    · exact .inl (find?_checkAll_of_forall_ne (by simpa using hdefined))

/-- The complaints about definitions depend on which of their names are taken. -/
theorem diagnostics_checkAll_congr
    (h : ∀ definition ∈ definitions,
      table.contains definition.name.text = other.contains definition.name.text) :
    (table.checkAll checks definitions).diagnostics =
      (other.checkAll checks definitions).diagnostics := by
  induction definitions generalizing table other with
  | nil => rfl
  | cons definition rest ih =>
      obtain ⟨hdefinition, hrest⟩ := List.forall_mem_cons.mp h
      have hnext : ∀ next ∈ rest,
          (table.check checks definition).symbols.contains next.name.text =
            (other.check checks definition).symbols.contains next.name.text := by
        intro next hmem
        rw [contains_check, contains_check, hrest next hmem]
      rw [diagnostics_checkAll_cons, diagnostics_checkAll_cons, diagnostics_check,
        diagnostics_check, hdefinition, ih hnext]

/-! ## Definitions without a common name -/

/-- Definitions are complained about as before once others have been checked whose names differ. -/
theorem diagnostics_checkAll_checkAll
    (h : ∀ definition ∈ definitions, ∀ next ∈ others, definition.name.text ≠ next.name.text) :
    ((table.checkAll checks definitions).symbols.checkAll checks others).diagnostics =
      (table.checkAll checks others).diagnostics := by
  apply diagnostics_checkAll_congr
  intro next hnext
  exact contains_checkAll_of_forall_ne fun definition hdefinition =>
    h definition hdefinition next hnext

/-- In either order a name gets what the definitions make of it that may have it. -/
theorem find?_checkAll_comm
    (h : ∀ definition ∈ definitions, ∀ next ∈ others, definition.name.text ≠ next.name.text)
    (name : String) :
    ((table.checkAll checks definitions).symbols.checkAll checks others).symbols.find? name =
      ((table.checkAll checks others).symbols.checkAll checks definitions).symbols.find? name := by
  by_cases hdefined : ∃ definition ∈ definitions, definition.name.text = name
  · obtain ⟨definition, hdefinition, rfl⟩ := hdefined
    have hothers : ∀ next ∈ others, next.name.text ≠ definition.name.text := fun next hnext =>
      (h definition hdefinition next hnext).symm
    calc ((table.checkAll checks definitions).symbols.checkAll checks others).symbols.find? _
        = (table.checkAll checks definitions).symbols.find? _ := find?_checkAll_of_forall_ne hothers
      _ = ((table.checkAll checks others).symbols.checkAll checks definitions).symbols.find? _ :=
        find?_checkAll_congr (find?_checkAll_of_forall_ne hothers).symm
  · have hdefinitions : ∀ definition ∈ definitions, definition.name.text ≠ name := by
      simpa using hdefined
    calc ((table.checkAll checks definitions).symbols.checkAll checks others).symbols.find? name
        = (table.checkAll checks others).symbols.find? name :=
          find?_checkAll_congr (find?_checkAll_of_forall_ne hdefinitions)
      _ = ((table.checkAll checks others).symbols.checkAll checks definitions).symbols.find? name :=
        (find?_checkAll_of_forall_ne hdefinitions).symm

/-- Checking a statement leaves all entries of the table as they are and adds at most names that
are defined in the statement, and what it finds depends only on which of these are taken.  So two
statements that define no common name may be checked in either order: the same names are defined
in the end, and as the same, and about each statement the same is found. -/
theorem verifyStatement_comm (checks : Checks) (table : SymbolTable) (statement : Stmt) :
    let found := table.verifyStatement checks statement
    (∀ name, found.symbols.find? name = table.find? name ∨
      table.find? name = none ∧ name ∈ statement.definedNames) ∧
    (∀ other : SymbolTable,
      (∀ name ∈ statement.definedNames, table.contains name = other.contains name) →
        (other.verifyStatement checks statement).diagnostics = found.diagnostics) ∧
    ∀ next : Stmt, statement.definedNames.Disjoint next.definedNames →
      let foundNext := table.verifyStatement checks next
      let nextBehind := found.symbols.verifyStatement checks next
      let behindNext := foundNext.symbols.verifyStatement checks statement
      (∀ name, nextBehind.symbols.find? name = behindNext.symbols.find? name) ∧
        nextBehind.diagnostics = foundNext.diagnostics ∧
        behindNext.diagnostics = found.diagnostics := by
  refine ⟨fun name => ?_, fun other hother => ?_, fun next hdisjoint => ?_⟩
  · refine find?_checkAll_eq_or.imp_right (And.imp_right ?_)
    rintro ⟨definition, hdefinition, rfl⟩
    exact Stmt.mem_definedNames hdefinition
  · apply diagnostics_checkAll_congr
    intro definition hdefinition
    exact (hother _ (Stmt.mem_definedNames hdefinition)).symm
  · have hne : ∀ definition ∈ statement.checkedDefinitions checks,
        ∀ later ∈ next.checkedDefinitions checks, definition.name.text ≠ later.name.text := by
      intro definition hdefinition later hlater heq
      exact hdisjoint (Stmt.mem_definedNames hdefinition) (heq ▸ Stmt.mem_definedNames hlater)
    exact ⟨find?_checkAll_comm hne, diagnostics_checkAll_checkAll hne,
      diagnostics_checkAll_checkAll fun later hlater definition hdefinition =>
        (hne definition hdefinition later hlater).symm⟩

end SymbolTable

/-- What `efunc main() \x7b \x7d` stands for. -/
def emptyMain : Stmt :=
  .entrypoint ⟨.kwEfunc, "efunc", ⟨2, 1⟩⟩ (.ofToken ⟨.identifier, "main", ⟨2, 7⟩⟩)
    ⟨⟨.openCurly, "\x7b", ⟨2, 14⟩⟩, []⟩

/-- A variable in a body is refused because its name is taken, whether or not an entrypoint has been
defined before. -/
theorem SymbolTable.verifyStatement_comm_guardedAndMain :
    let table := (empty.verifyStatement .strict (trueAsInt 1)).symbols
    let guarded := Stmt.expression ⟨.kwIf, "if", ⟨1, 1⟩⟩ (guardedTrueAsInt 1)
    let found := table.verifyStatement .strict guarded
    let foundMain := table.verifyStatement .strict emptyMain
    (∀ name ∈ guarded.definedNames, table.contains name = true) ∧
      guarded.definedNames.Disjoint emptyMain.definedNames ∧
      (foundMain.symbols.verifyStatement .strict guarded).diagnostics =
        [⟨.alreadyDefined "x", ⟨1, 18⟩⟩, ⟨.typeMismatch "x" "int" "bool", ⟨1, 22⟩⟩] ∧
      (found.symbols.verifyStatement .strict emptyMain).diagnostics = [] ∧
      (found.symbols.verifyStatement .strict emptyMain).symbols.find? "main" =
        (foundMain.symbols.verifyStatement .strict guarded).symbols.find? "main" := by
  intro table guarded found foundMain
  have hdisjoint : guarded.definedNames.Disjoint emptyMain.definedNames :=
    List.disjoint_left.mpr (by decide)
  obtain ⟨-, -, hcomm⟩ := verifyStatement_comm .strict table guarded
  obtain ⟨hsymbols, hmain, hguarded⟩ := hcomm emptyMain hdisjoint
  exact ⟨by decide, hdisjoint, hguarded.trans (by decide), hmain.trans (by decide),
    hsymbols "main"⟩

end LineScript
