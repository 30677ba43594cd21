import LineScript.Diagnostic

/-!
# The symbol table

Variables, functions and entrypoints share one flat namespace.  A name is defined
at most once: the first definition stays, and a later one is refused.
-/

namespace LineScript

/-- What a name stands for.  An entrypoint takes and returns nothing, so nothing is
kept of it. -/
inductive Symbol where
  | variable (declaredType : String)
  | function (returnType : String) (parameterTypes : List String)
  | entrypoint
deriving DecidableEq, Repr

/-- A symbol as text. -/
def Symbol.render : Symbol → String
  | .variable declaredType => declaredType
  | .function returnType parameterTypes =>
    "\x7b" ++ returnType ++ ", " ++ ", ".intercalate parameterTypes ++ "\x7d"
  | .entrypoint => "EPF"

/-- Names and what they stand for, each name once. -/
structure SymbolTable where
  entries : List (String × Symbol)
  nodup : (entries.map (·.1)).Nodup

namespace SymbolTable

/-- The table without names. -/
def empty : SymbolTable := ⟨[], by simp⟩

/-- The number of names. -/
def size (table : SymbolTable) : Nat :=
  table.entries.length

/-- What `name` stands for, if it is defined. -/
def find? (table : SymbolTable) (name : String) : Option Symbol :=
  table.entries.lookup name

/-- Whether `name` is defined. -/
def contains (table : SymbolTable) (name : String) : Bool :=
  (table.find? name).isSome

theorem notMem_of_contains_eq_false {table : SymbolTable} {name : String}
    (h : table.contains name = false) : name ∉ table.entries.map (·.1) := by
  intro hmem
  obtain ⟨entry, hentry, rfl⟩ := List.mem_map.mp hmem
  simp only [contains, find?, Option.isSome_eq_false_iff, Option.isNone_iff_eq_none,
    List.lookup_eq_none_iff] at h
  simpa using h entry hentry

/-- The table in which `name`, which is new, stands for `symbol`. -/
def add (table : SymbolTable) (name : String) (symbol : Symbol)
    (isNew : table.contains name = false) : SymbolTable :=
  ⟨(name, symbol) :: table.entries,
    List.nodup_cons.mpr ⟨notMem_of_contains_eq_false isNew, table.nodup⟩⟩

/-- Defines `name`, unless it is defined; `position` is where the definition stands. -/
def define (table : SymbolTable) (name : String) (symbol : Symbol) (position : Position) :
    Except Diagnostic SymbolTable :=
  if isNew : table.contains name = false then .ok (table.add name symbol isNew)
  else .error ⟨.alreadyDefined name, position⟩

@[simp] theorem find?_empty (name : String) : empty.find? name = none := rfl

theorem find?_add (table : SymbolTable) (name : String) (symbol : Symbol)
    (isNew : table.contains name = false) (other : String) :
    (table.add name symbol isNew).find? other =
      if other = name then some symbol else table.find? other := by
  simp only [add, find?, List.lookup_cons]
  by_cases h : other = name
  · simp [h]
  · simp [h, beq_false_of_ne h]

end SymbolTable

end LineScript
