import LineScript.Symbols.Definition

/-!
# Verification

Definitions are checked in source order against one symbol table.  A variable is
checked for a name that is taken and, apart from that, for a literal value of
another type than declared.  An entrypoint is defined only if its name is allowed
and free.  The other checks are made on request.
-/

namespace LineScript

/-- The checks beyond the definitions of variables and entrypoints at the top level. -/
structure Checks where
  /-- Whether functions are defined in the symbol table. -/
  functionSignatures : Bool
  /-- Whether the definitions in bodies are checked. -/
  nestedBlocks : Bool
deriving DecidableEq, Repr

namespace Checks

/-- No further checks. -/
def basic : Checks := ⟨false, false⟩

/-- All checks. -/
def strict : Checks := ⟨true, true⟩

end Checks

/-- The symbols that are defined after a verification, and what it found. -/
structure Findings where
  symbols : SymbolTable
  diagnostics : List Diagnostic

namespace SymbolTable

/-- Makes a definition, or finds that its name is taken. -/
def make (table : SymbolTable) (definition : Definition) : Findings :=
  match table.define definition.name.text definition.symbol definition.name.token.position with
  | .ok table => ⟨table, []⟩
  | .error diagnostic => ⟨table, [diagnostic]⟩

/-- What is wrong with the value of a variable: it is not of the declared type. -/
def mismatch (declaredType : TypeName) (name : Name) (value : Expr) : List Diagnostic :=
  if value.literalType = declaredType.text then []
  else [⟨.typeMismatch name.text declaredType.text value.literalType, value.token.position⟩]

/-- Checks one definition. -/
def check (checks : Checks) (table : SymbolTable) : Definition → Findings
  | .variable declaredType name value =>
    let made := table.make (.variable declaredType name value)
    { made with diagnostics := made.diagnostics ++ mismatch declaredType name value }
  | .function definition =>
    if checks.functionSignatures then table.make (.function definition) else ⟨table, []⟩
  | .entrypoint name =>
    if Entrypoint.isAllowed name.text then table.make (.entrypoint name)
    else
      ⟨table, ⟨.unknownEntrypoint name.text, name.token.position⟩ ::
        (table.make (.entrypoint name)).diagnostics⟩

/-- Checks definitions one after the other. -/
def checkAll (checks : Checks) (table : SymbolTable) : List Definition → Findings
  | [] => ⟨table, []⟩
  | definition :: others =>
    let first := table.check checks definition
    let rest := first.symbols.checkAll checks others
    { rest with diagnostics := first.diagnostics ++ rest.diagnostics }

end SymbolTable

/-- The definitions of a statement that are checked. -/
def Stmt.checkedDefinitions (checks : Checks) (statement : Stmt) : List Definition :=
  if checks.nestedBlocks then statement.definitions else statement.ownDefinitions

namespace SymbolTable

/-- Checks a statement of a program. -/
def verifyStatement (checks : Checks) (table : SymbolTable) (statement : Stmt) : Findings :=
  table.checkAll checks (statement.checkedDefinitions checks)

/-- Checks a program in addition to what the table holds already. -/
def verifyProgram (checks : Checks) (table : SymbolTable) (program : Program) : Findings :=
  table.checkAll checks (program.statements.flatMap (·.checkedDefinitions checks))

end SymbolTable

/-- Checks a program by itself. -/
def verify (checks : Checks) (program : Program) : Findings :=
  SymbolTable.empty.verifyProgram checks program

end LineScript
