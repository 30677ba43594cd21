import LineScript.Symbols.Verification

/-!
# What a check does

Checking one definition does two things.  It may add one name to the symbol table, and it
finds complaints that depend on the table only through the question whether the name of
the definition is taken.  Checking a list of definitions does this one by one.
-/

namespace LineScript

namespace Definition

/-- Whether the checks want the name of the definition in the symbol table.  An entrypoint
must be allowed to have its name. -/
def IsAttempt (checks : Checks) : Definition → Prop
  | .variable _ _ _ => True
  | .function _ => checks.functionSignatures
  | .entrypoint name => Entrypoint.isAllowed name.text

instance (checks : Checks) (definition : Definition) : Decidable (definition.IsAttempt checks) :=
  match definition with
  | .variable _ _ _ => inferInstanceAs (Decidable True)
  | .function _ => inferInstanceAs (Decidable (checks.functionSignatures = true))
  | .entrypoint name => inferInstanceAs (Decidable (Entrypoint.isAllowed name.text = true))

/-- Whether the definition is an attempt to define `name`. -/
def Attempts (checks : Checks) (name : String) (definition : Definition) : Prop :=
  definition.IsAttempt checks ∧ definition.name.text = name

instance (checks : Checks) (name : String) (definition : Definition) :
    Decidable (definition.Attempts checks name) :=
  inferInstanceAs (Decidable (_ ∧ _))

/-- The complaint that the name of the definition is taken, if it is. -/
def retaken (taken : Bool) (name : Name) : List Diagnostic :=
  if taken then [⟨.alreadyDefined name.text, name.token.position⟩] else []

/-- What is wrong with a definition whose name is taken or not. -/
def complaints (checks : Checks) (taken : Bool) : Definition → List Diagnostic
  | .variable declaredType name value =>
    retaken taken name ++
      if value.literalType = declaredType.text then []
      else [⟨.typeMismatch name.text declaredType.text value.literalType, value.token.position⟩]
  | .function definition =>
    if checks.functionSignatures then retaken taken definition.name else []
  | .entrypoint name =>
    (if Entrypoint.isAllowed name.text then []
      else [⟨.unknownEntrypoint name.text, name.token.position⟩]) ++ retaken taken name

end Definition

namespace SymbolTable

open Definition

/-! ## One definition -/

/-- A definition is made if its name is free, and leaves the table as it is otherwise. -/
theorem find?_make (table : SymbolTable) (definition : Definition) (name : String) :
    (table.make definition).symbols.find? name =
      (table.find? name).or
        (if definition.name.text = name then some definition.symbol else none) := by
  unfold make define
  by_cases isNew : table.contains definition.name.text = false
  · have hnone : table.find? definition.name.text = none := by
      simpa [contains] using isNew
    rw [dif_pos isNew]
    simp only [find?_add]
    by_cases hname : definition.name.text = name
    · simp [← hname, hnone]
    · simp [hname, Ne.symm hname]
  · rw [dif_neg isNew]
    by_cases hname : definition.name.text = name
    · obtain ⟨symbol, hsymbol⟩ := Option.isSome_iff_exists.mp (Bool.not_eq_false _ ▸ isNew)
      simp [← hname, hsymbol]
    · simp [hname]

theorem diagnostics_make (table : SymbolTable) (definition : Definition) :
    (table.make definition).diagnostics =
      retaken (table.contains definition.name.text) definition.name := by
  unfold make define retaken
  by_cases isNew : table.contains definition.name.text = false
  · simp [isNew]
  · simp [isNew]

theorem find?_check (checks : Checks) (table : SymbolTable) (definition : Definition)
    (name : String) :
    (table.check checks definition).symbols.find? name =
      (table.find? name).or
        (if definition.Attempts checks name then some definition.symbol else none) := by
  rcases definition with ⟨declaredType, declared, value⟩ | function | entrypoint
  · simp only [check, find?_make, Attempts, IsAttempt, true_and]
  · by_cases hchecked : checks.functionSignatures = true
    · simp only [check, find?_make, Attempts, IsAttempt, hchecked, if_true, true_and]
    · simp [check, Attempts, IsAttempt, hchecked]
  · by_cases hallowed : Entrypoint.isAllowed entrypoint.text = true
    · simp only [check, find?_make, Attempts, IsAttempt, hallowed, if_true, true_and]
    · simp [check, Attempts, IsAttempt, hallowed]

theorem diagnostics_check (checks : Checks) (table : SymbolTable) (definition : Definition) :
    (table.check checks definition).diagnostics =
      definition.complaints checks (table.contains definition.name.text) := by
  rcases definition with ⟨declaredType, declared, value⟩ | function | entrypoint
  · simp only [check, diagnostics_make]
    rfl
  · by_cases hchecked : checks.functionSignatures = true
    · simp only [check, diagnostics_make, complaints, hchecked, if_true]
      rfl
    · simp [check, complaints, hchecked]
  · by_cases hallowed : Entrypoint.isAllowed entrypoint.text = true
    · simp only [check, diagnostics_make, complaints, hallowed, if_true, List.nil_append]
      rfl
    · simp only [check, diagnostics_make, complaints, hallowed]
      rfl

theorem contains_check (checks : Checks) (table : SymbolTable) (definition : Definition)
    (name : String) :
    (table.check checks definition).symbols.contains name =
      (table.contains name || definition.Attempts checks name) := by
  unfold contains
  rw [find?_check]
  cases table.find? name with
  | some symbol => rfl
  | none => by_cases h : definition.Attempts checks name <;> simp [h]

/-! ## Definitions one after the other -/

@[simp]
theorem checkAll_nil (checks : Checks) (table : SymbolTable) :
    table.checkAll checks [] = ⟨table, []⟩ := rfl

@[simp]
theorem symbols_checkAll_cons (checks : Checks) (table : SymbolTable) (definition : Definition)
    (others : List Definition) :
    (table.checkAll checks (definition :: others)).symbols =
      ((table.check checks definition).symbols.checkAll checks others).symbols := rfl

@[simp]
theorem diagnostics_checkAll_cons (checks : Checks) (table : SymbolTable)
    (definition : Definition) (others : List Definition) :
    (table.checkAll checks (definition :: others)).diagnostics =
      (table.check checks definition).diagnostics ++
        ((table.check checks definition).symbols.checkAll checks others).diagnostics := rfl

/-- What comes later is checked against what comes first. -/
theorem checkAll_append (checks : Checks) (table : SymbolTable) (first second : List Definition) :
    table.checkAll checks (first ++ second) =
      let found := table.checkAll checks first
      let rest := found.symbols.checkAll checks second
      { rest with diagnostics := found.diagnostics ++ rest.diagnostics } := by
  induction first generalizing table with
  | nil => rfl
  | cons definition others ih => simp [checkAll, ih]

/-- A name stands for what it stood for, or else for what the first attempt makes of it. -/
theorem find?_checkAll (checks : Checks) (table : SymbolTable) (definitions : List Definition)
    (name : String) :
    (table.checkAll checks definitions).symbols.find? name =
      (table.find? name).or
        ((definitions.find? (·.Attempts checks name)).map Definition.symbol) := by
  induction definitions generalizing table with
  | nil => simp
  | cons definition others ih =>
      rw [symbols_checkAll_cons, ih, find?_check, Option.or_assoc, List.find?_cons]
      by_cases h : definition.Attempts checks name <;> simp [h]

/-- A definition is complained about as if the table held the attempts before it. -/
theorem diagnostics_checkAll (checks : Checks) (table : SymbolTable)
    (definitions : List Definition) :
    (table.checkAll checks definitions).diagnostics =
      (definitions.mapIdx fun index definition =>
        definition.complaints checks (table.contains definition.name.text ||
          (definitions.take index).any (·.Attempts checks definition.name.text))).flatten := by
  induction definitions generalizing table with
  | nil => rfl
  | cons definition others ih =>
      rw [diagnostics_checkAll_cons, ih, diagnostics_check, List.mapIdx_cons, List.flatten_cons]
      simp [contains_check, Bool.or_assoc]

end SymbolTable

end LineScript
