import LineScript.Proofs.Symbols.Checking
import LineScript.Proofs.Tree.Induction
import Mathlib.Data.List.Flatten

/-!
# Checking on the way down

Verification collects definitions from the tree and checks them afterwards.  One may as well check
a tree while descending into it: a statement is checked where it is met, its body next, and the
table and the diagnostics found so far are handed on from each check to the following one.  Both
find the same.  So entering bodies is no more than checking a longer program without entering any:
the program in which every statement that defines a name stands in front of what its body holds.
-/

namespace LineScript

/-! ## One check after another -/

namespace Findings

/-- One more diagnostic. -/
def record (found : Findings) (diagnostic : Diagnostic) : Findings :=
  { found with diagnostics := found.diagnostics ++ [diagnostic] }

/-- Defines a name, or records that it is taken. -/
def define (found : Findings) (name : Name) (symbol : Symbol) : Findings :=
  match found.symbols.define name.text symbol name.token.position with
  | .ok symbols => { found with symbols := symbols }
  | .error diagnostic => found.record diagnostic

/-- Checks a variable: its name and, whatever has come of that, its value. -/
def checkVariable (found : Findings) (declaredType : TypeName) (name : Name) (value : Expr) :
    Findings :=
  let defined := found.define name (.variable declaredType.text)
  if value.literalType = declaredType.text then defined
  else defined.record
    ⟨.typeMismatch name.text declaredType.text value.literalType, value.token.position⟩

/-- Checks the name of an entrypoint, which is defined only if nothing is wrong with it. -/
def checkEntrypoint (found : Findings) (name : Name) : Findings :=
  let asked :=
    if Entrypoint.isAllowed name.text then found
    else found.record ⟨.unknownEntrypoint name.text, name.token.position⟩
  let looked :=
    if asked.symbols.contains name.text then
      asked.record ⟨.alreadyDefined name.text, name.token.position⟩
    else asked
  if Entrypoint.isAllowed name.text && !asked.symbols.contains name.text then
    looked.define name .entrypoint
  else looked

/-- Checks the signature of a function, if signatures are checked. -/
def checkSignature (checks : Checks) (found : Findings) (definition : FunctionDefinition) :
    Findings :=
  if checks.functionSignatures then
    found.define definition.name (Definition.function definition).symbol
  else found

/-- What has been found once the definitions are checked too. -/
def checkAll (checks : Checks) (found : Findings) (definitions : List Definition) : Findings :=
  let more := found.symbols.checkAll checks definitions
  { more with diagnostics := found.diagnostics ++ more.diagnostics }

variable {checks : Checks}

@[simp]
theorem checkAll_nil (found : Findings) : found.checkAll checks [] = found := by
  simp [checkAll]

theorem checkAll_append (found : Findings) (first second : List Definition) :
    found.checkAll checks (first ++ second) =
      (found.checkAll checks first).checkAll checks second := by
  simp [checkAll, SymbolTable.checkAll_append]

theorem checkAll_singleton (found : Findings) (definition : Definition) :
    found.checkAll checks [definition] =
      ⟨(found.symbols.check checks definition).symbols,
        found.diagnostics ++ (found.symbols.check checks definition).diagnostics⟩ := by
  simp [checkAll]

theorem define_eq (found : Findings) (definition : Definition) :
    found.define definition.name definition.symbol =
      ⟨(found.symbols.make definition).symbols,
        found.diagnostics ++ (found.symbols.make definition).diagnostics⟩ := by
  unfold define SymbolTable.make
  cases found.symbols.define definition.name.text definition.symbol
    definition.name.token.position with
  | ok symbols => rw [List.append_nil]
  | error diagnostic => rfl

theorem checkVariable_eq (checks : Checks) (found : Findings) (declaredType : TypeName)
    (name : Name) (value : Expr) :
    found.checkVariable declaredType name value =
      found.checkAll checks [.variable declaredType name value] := by
  have hdefine := found.define_eq (.variable declaredType name value)
  rw [checkAll_singleton, checkVariable]
  simp only [Definition.name, Definition.symbol] at hdefine
  rw [hdefine]
  simp only [SymbolTable.check, SymbolTable.mismatch, record]
  split
  · rw [List.append_nil]
  · rw [List.append_assoc]

theorem checkSignature_eq (found : Findings) (definition : FunctionDefinition) :
    found.checkSignature checks definition = found.checkAll checks [.function definition] := by
  rw [checkAll_singleton, checkSignature, SymbolTable.check]
  split
  · exact found.define_eq (.function definition)
  · rw [List.append_nil]

/-- A definition of a name that is taken leaves the table as it is. -/
theorem make_of_contains {table : SymbolTable} (definition : Definition)
    (h : table.contains definition.name.text = true) :
    table.make definition =
      ⟨table, [⟨.alreadyDefined definition.name.text, definition.name.token.position⟩]⟩ := by
  rw [SymbolTable.make, SymbolTable.define, dif_neg (by simp [h])]

theorem checkEntrypoint_eq (checks : Checks) (found : Findings) (name : Name) :
    found.checkEntrypoint name = found.checkAll checks [.entrypoint name] := by
  rw [checkAll_singleton, checkEntrypoint, SymbolTable.check]
  by_cases hallowed : Entrypoint.isAllowed name.text = true
  · by_cases htaken : found.symbols.contains name.text = true
    · have hmake := make_of_contains (.entrypoint name) htaken
      simp only [hallowed, htaken, hmake, if_true, Bool.not_true, Bool.and_false]
      rfl
    · have hdefine := found.define_eq (.entrypoint name)
      simp only [Definition.name, Definition.symbol] at hdefine
      simp [hallowed, htaken, hdefine]
  · have hmake := found.symbols.diagnostics_make (.entrypoint name)
    by_cases htaken : found.symbols.contains name.text = true
    · simp [hallowed, htaken, hmake, record, Definition.retaken, Definition.name]
    · simp [hallowed, htaken, hmake, record, Definition.retaken, Definition.name]

end Findings

/-! ## The descent -/

mutual

/-- Enters the bodies of a conditional, or checks a function.  Nothing else is entered. -/
def Expr.inspect (checks : Checks) : Expr → Findings → Findings
  | .conditional _ _ consequence none, found => consequence.inspect checks found
  | .conditional _ _ consequence (some alternative), found =>
    alternative.inspect checks (consequence.inspect checks found)
  | .function definition, found => definition.inspect checks found
  | _, found => found
termination_by structural expression => expression

/-- Checks the statements of a block. -/
def Block.inspect (checks : Checks) : Block → Findings → Findings
  | ⟨_, statements⟩, found => Stmt.inspectAll checks statements found
termination_by structural block => block

/-- Checks a function, and then its body if bodies are entered. -/
def FunctionDefinition.inspect (checks : Checks) : FunctionDefinition → Findings → Findings
  | ⟨token, name, parameters, returnType, body⟩, found =>
    let reached := found.checkSignature checks ⟨token, name, parameters, returnType, body⟩
    if checks.nestedBlocks then body.inspect checks reached else reached
termination_by structural definition => definition

/-- Checks a statement, and then what it holds if bodies are entered. -/
def Stmt.inspect (checks : Checks) : Stmt → Findings → Findings
  | .var _ declaredType name value, found => found.checkVariable declaredType name value
  | .function definition, found => definition.inspect checks found
  | .entrypoint _ name body, found =>
    let reached := found.checkEntrypoint name
    if checks.nestedBlocks then body.inspect checks reached else reached
  | .block content, found => if checks.nestedBlocks then content.inspect checks found else found
  | .expression _ value, found => if checks.nestedBlocks then value.inspect checks found else found
  | .ret _ value, found => if checks.nestedBlocks then value.inspect checks found else found
termination_by structural statement => statement

/-- Checks statements one after the other. -/
def Stmt.inspectAll (checks : Checks) : List Stmt → Findings → Findings
  | [], found => found
  | statement :: others, found => Stmt.inspectAll checks others (statement.inspect checks found)
termination_by structural statements => statements

end

/-- Checks a program on the way down, behind what has been found before. -/
def Program.inspect (checks : Checks) (program : Program) (found : Findings) : Findings :=
  Stmt.inspectAll checks program.statements found

/-- Where bodies are entered, a descent checks the definitions that are collected. -/
theorem hereditary_inspect {checks : Checks} (hnested : checks.nestedBlocks = true) :
    Hereditary
      (fun value => ∀ found, value.inspect checks found = found.checkAll checks value.definitions)
      (fun block => ∀ found, block.inspect checks found = found.checkAll checks block.definitions)
      (fun definition => ∀ found,
        definition.inspect checks found = found.checkAll checks definition.definitions)
      (fun statement => ∀ found,
        statement.inspect checks found = found.checkAll checks statement.definitions) where
  identifier := by simp [Expr.inspect, Expr.definitions]
  boolean := by simp [Expr.inspect, Expr.definitions]
  integer := by simp [Expr.inspect, Expr.definitions]
  string := by simp [Expr.inspect, Expr.definitions]
  unary := by simp [Expr.inspect, Expr.definitions]
  binary := by simp [Expr.inspect, Expr.definitions]
  conditional := by
    intro token condition consequence _ hconsequence found
    exact hconsequence found
  alternative := by
    intro token condition consequence alternative _ hconsequence halternative found
    rw [Expr.inspect, Expr.definitions, Findings.checkAll_append, hconsequence, halternative]
  call := by simp [Expr.inspect, Expr.definitions]
  function := by
    intro definition hdefinition found
    exact hdefinition found
  block := by
    intro token statements hstatements found
    rw [Block.inspect, Block.definitions]
    induction statements generalizing found with
    | nil => exact (found.checkAll_nil).symm
    | cons statement others ih =>
        obtain ⟨hstatement, hothers⟩ := List.forall_mem_cons.mp hstatements
        rw [Stmt.inspectAll, Stmt.definitionsOfAll, Findings.checkAll_append, hstatement]
        exact ih hothers _
  definition := by
    intro token name parameters returnType body hbody found
    rw [FunctionDefinition.inspect, FunctionDefinition.definitions, if_pos hnested, hbody,
      Findings.checkSignature_eq, ← Findings.checkAll_append]
    rfl
  expressionStmt := by
    intro token value hvalue found
    rw [Stmt.inspect, if_pos hnested]
    exact hvalue found
  blockStmt := by
    intro content hcontent found
    rw [Stmt.inspect, if_pos hnested]
    exact hcontent found
  varStmt := by
    intro token declaredType name value _ found
    exact found.checkVariable_eq checks declaredType name value
  retStmt := by
    intro token value hvalue found
    rw [Stmt.inspect, if_pos hnested]
    exact hvalue found
  functionStmt := by
    intro definition hdefinition found
    exact hdefinition found
  entrypointStmt := by
    intro token name body hbody found
    rw [Stmt.inspect, if_pos hnested, hbody, Findings.checkEntrypoint_eq checks,
      ← Findings.checkAll_append]
    rfl

/-- A descent checks the definitions of a statement that are checked. -/
theorem Stmt.inspect_eq (checks : Checks) (statement : Stmt) (found : Findings) :
    statement.inspect checks found =
      found.checkAll checks (statement.checkedDefinitions checks) := by
  unfold checkedDefinitions
  by_cases hnested : checks.nestedBlocks = true
  · rw [if_pos hnested]
    exact (hereditary_inspect hnested).stmt statement found
  · rw [if_neg hnested]
    rcases statement with _ | _ | ⟨_, declaredType, name, value⟩ | _ |
      ⟨⟨token, name, parameters, returnType, body⟩⟩ | ⟨_, name, body⟩
    · simp [inspect, hnested, ownDefinitions]
    · simp [inspect, hnested, ownDefinitions]
    · exact found.checkVariable_eq checks declaredType name value
    · simp [inspect, hnested, ownDefinitions]
    · rw [inspect, FunctionDefinition.inspect, if_neg hnested]
      exact found.checkSignature_eq _
    · rw [inspect, if_neg hnested]
      exact found.checkEntrypoint_eq checks name

theorem Stmt.inspectAll_eq (checks : Checks) (statements : List Stmt) (found : Findings) :
    Stmt.inspectAll checks statements found =
      found.checkAll checks (statements.flatMap (·.checkedDefinitions checks)) := by
  induction statements generalizing found with
  | nil => exact (found.checkAll_nil).symm
  | cons statement others ih =>
      rw [Stmt.inspectAll, List.flatMap_cons, Findings.checkAll_append, ih, statement.inspect_eq]

/-! ## Flat programs -/

mutual

/-- The statements that define a name in the bodies of a conditional, or a function and those in
its body. -/
def Expr.flat : Expr → List Stmt
  | .conditional _ _ consequence none => consequence.flat
  | .conditional _ _ consequence (some alternative) => consequence.flat ++ alternative.flat
  | .function definition => .function definition :: definition.flatBody
  | _ => []
termination_by structural expression => expression

/-- The statements in a block that define a name. -/
def Block.flat : Block → List Stmt
  | ⟨_, statements⟩ => Stmt.flatAll statements
termination_by structural block => block

/-- The statements in the body of a function that define a name. -/
def FunctionDefinition.flatBody : FunctionDefinition → List Stmt
  | ⟨_, _, _, _, body⟩ => body.flat
termination_by structural definition => definition

/-- A statement, if it defines a name, and those within it that do. -/
def Stmt.flat : Stmt → List Stmt
  | .var token declaredType name value => [.var token declaredType name value]
  | .function definition => .function definition :: definition.flatBody
  | .entrypoint token name body => .entrypoint token name body :: body.flat
  | .block content => content.flat
  | .expression _ value => value.flat
  | .ret _ value => value.flat
termination_by structural statement => statement

/-- The statements that define a name, those within others included. -/
def Stmt.flatAll : List Stmt → List Stmt
  | [] => []
  | statement :: others => statement.flat ++ Stmt.flatAll others
termination_by structural statements => statements

end

/-- The program in which every statement that defines a name stands by itself, in front of those
that its body holds. -/
def Program.flat (program : Program) : Program :=
  ⟨Stmt.flatAll program.statements⟩

/-- Nothing but the statements of the flat program defines a name in a tree. -/
theorem hereditary_flat :
    Hereditary (fun value => value.definitions = value.flat.flatMap Stmt.ownDefinitions)
      (fun block => block.definitions = block.flat.flatMap Stmt.ownDefinitions)
      (fun definition => definition.definitions =
        .function definition :: definition.flatBody.flatMap Stmt.ownDefinitions)
      (fun statement => statement.definitions =
        statement.flat.flatMap Stmt.ownDefinitions) where
  identifier := by simp [Expr.definitions, Expr.flat]
  boolean := by simp [Expr.definitions, Expr.flat]
  integer := by simp [Expr.definitions, Expr.flat]
  string := by simp [Expr.definitions, Expr.flat]
  unary := by simp [Expr.definitions, Expr.flat]
  binary := by simp [Expr.definitions, Expr.flat]
  conditional := by simp [Expr.definitions, Expr.flat]
  alternative := by simp_all [Expr.definitions, Expr.flat]
  call := by simp [Expr.definitions, Expr.flat]
  function := by simp [Expr.definitions, Expr.flat, Stmt.ownDefinitions]
  block := by
    intro token statements hstatements
    rw [Block.definitions, Block.flat]
    induction statements with
    | nil => rfl
    | cons statement others ih =>
        obtain ⟨hstatement, hothers⟩ := List.forall_mem_cons.mp hstatements
        rw [Stmt.definitionsOfAll, Stmt.flatAll, List.flatMap_append, hstatement, ih hothers]
  definition := by simp [FunctionDefinition.definitions, FunctionDefinition.flatBody]
  expressionStmt := by simp [Stmt.definitions, Stmt.flat]
  blockStmt := by simp [Stmt.definitions, Stmt.flat]
  varStmt := by simp [Stmt.definitions, Stmt.flat, Stmt.ownDefinitions]
  retStmt := by simp [Stmt.definitions, Stmt.flat]
  functionStmt := by simp [Stmt.definitions, Stmt.flat, Stmt.ownDefinitions]
  entrypointStmt := by simp [Stmt.definitions, Stmt.flat, Stmt.ownDefinitions]

theorem Program.flatMap_checkedDefinitions_flat (functionSignatures : Bool) (program : Program) :
    program.statements.flatMap (·.checkedDefinitions ⟨functionSignatures, true⟩) =
      program.flat.statements.flatMap (·.checkedDefinitions ⟨functionSignatures, false⟩) := by
  obtain ⟨statements⟩ := program
  unfold Program.flat
  induction statements with
  | nil => rfl
  | cons statement others ih =>
      rw [List.flatMap_cons, Stmt.flatAll, List.flatMap_append, ih]
      congr 1
      exact hereditary_flat.stmt statement

/-- Once the definitions are collected it does not matter any more whether bodies are entered. -/
theorem SymbolTable.checkAll_congr (checks other : Checks)
    (h : checks.functionSignatures = other.functionSignatures) (table : SymbolTable)
    (definitions : List Definition) :
    table.checkAll checks definitions = table.checkAll other definitions := by
  have hcheck (table : SymbolTable) (definition : Definition) :
      table.check checks definition = table.check other definition := by
    cases definition with
    | function definition => rw [check, check, h]
    | _ => rfl
  induction definitions generalizing table with
  | nil => rfl
  | cons definition others ih => rw [checkAll, checkAll, hcheck, ih]

/-- Whatever has been found before: a check on the way down that enters bodies finds what the flat
program shows without entering any, the same diagnostics in the same order and the same table.
Verification of the collected definitions, which finds the same as a check on the way down, has
this property too. -/
theorem inspect_flat (functionSignatures : Bool) (program : Program) (found : Findings) :
    program.inspect ⟨functionSignatures, true⟩ found =
        program.flat.inspect ⟨functionSignatures, false⟩ found ∧
      found.symbols.verifyProgram ⟨functionSignatures, true⟩ program =
        found.symbols.verifyProgram ⟨functionSignatures, false⟩ program.flat ∧
      ∀ checks (other : Program),
        other.inspect checks found =
          ⟨(found.symbols.verifyProgram checks other).symbols,
            found.diagnostics ++ (found.symbols.verifyProgram checks other).diagnostics⟩ := by
  have hinspect (checks : Checks) (other : Program) : other.inspect checks found =
      ⟨(found.symbols.verifyProgram checks other).symbols,
        found.diagnostics ++ (found.symbols.verifyProgram checks other).diagnostics⟩ :=
    Stmt.inspectAll_eq checks other.statements found
  have hverify : found.symbols.verifyProgram ⟨functionSignatures, true⟩ program =
      found.symbols.verifyProgram ⟨functionSignatures, false⟩ program.flat := by
    rw [SymbolTable.verifyProgram, SymbolTable.verifyProgram,
      program.flatMap_checkedDefinitions_flat]
    exact SymbolTable.checkAll_congr ⟨functionSignatures, true⟩ ⟨functionSignatures, false⟩ rfl _ _
  refine ⟨?_, hverify, hinspect⟩
  calc program.inspect ⟨functionSignatures, true⟩ found
      = ⟨(found.symbols.verifyProgram ⟨functionSignatures, true⟩ program).symbols,
          found.diagnostics ++
            (found.symbols.verifyProgram ⟨functionSignatures, true⟩ program).diagnostics⟩ :=
        hinspect _ _
    _ = program.flat.inspect ⟨functionSignatures, false⟩ found := by
        rw [hverify]
        exact (hinspect _ _).symm

end LineScript
