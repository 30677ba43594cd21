import LineScript.Proofs.Symbols.Checking
import LineScript.Proofs.Tree.Induction
import Mathlib.Data.List.Basic

/-!
# One flat namespace

Verification visits statements in source order.  Whatever the programs are, the symbol table
afterwards holds what the first attempt at each name has made of it, and every complaint
about a definition can be told from the attempts that were visited before.
-/

namespace LineScript

/-! ## Visited statements -/

mutual

/-- The statements that are visited within an expression: those in the bodies of a conditional,
or a function and those in its body. -/
def Expr.visited : Expr → List Stmt
  | .conditional _ _ consequence none => consequence.visited
  | .conditional _ _ consequence (some alternative) =>
    consequence.visited ++ alternative.visited
  | .function definition => .function definition :: definition.visitedInBody
  | _ => []
termination_by structural expression => expression

/-- The statements that are visited within a block. -/
def Block.visited : Block → List Stmt
  | ⟨_, statements⟩ => Stmt.visitedInAll statements
termination_by structural block => block

/-- The statements that are visited within the body of a function. -/
def FunctionDefinition.visitedInBody : FunctionDefinition → List Stmt
  | ⟨_, _, _, _, body⟩ => body.visited
termination_by structural definition => definition

/-- A statement and the statements that are visited within it, in source order. -/
def Stmt.visited : Stmt → List Stmt
  | .var token declaredType name value => [.var token declaredType name value]
  | .function definition => .function definition :: definition.visitedInBody
  | .entrypoint token name body => .entrypoint token name body :: body.visited
  | .expression token value => .expression token value :: value.visited
  | .ret token value => .ret token value :: value.visited
  | .block content => .block content :: content.visited
termination_by structural statement => statement

/-- Statements and those that are visited within them, in source order. -/
def Stmt.visitedInAll : List Stmt → List Stmt
  | [] => []
  | statement :: others => statement.visited ++ Stmt.visitedInAll others
termination_by structural statements => statements

end

attribute [simp] Expr.visited Block.visited FunctionDefinition.visitedInBody Stmt.visited
attribute [simp] Stmt.ownDefinitions

theorem Stmt.visitedInAll_eq_flatMap (statements : List Stmt) :
    Stmt.visitedInAll statements = statements.flatMap Stmt.visited := by
  induction statements with
  | nil => rfl
  | cons statement others ih => simp [Stmt.visitedInAll, ih]

/-- The statements of a program that are visited.  Bodies are entered on request. -/
def Program.visited (checks : Checks) (program : Program) : List Stmt :=
  program.statements.flatMap fun statement =>
    if checks.nestedBlocks then statement.visited else [statement]

/-- The definitions that the visited statements make. -/
def visitedDefinitions (checks : Checks) (programs : List Program) : List Definition :=
  (programs.flatMap (·.visited checks)).flatMap Stmt.ownDefinitions

/-- The nested definitions of a tree are those that its visited statements make. -/
theorem hereditary_definitions :
    Hereditary (fun value => value.definitions = value.visited.flatMap Stmt.ownDefinitions)
      (fun block => block.definitions = block.visited.flatMap Stmt.ownDefinitions)
      (fun definition => definition.definitions =
        .function definition :: definition.visitedInBody.flatMap Stmt.ownDefinitions)
      (fun statement => statement.definitions =
        statement.visited.flatMap Stmt.ownDefinitions) where
  identifier := by simp [Expr.definitions]
  boolean := by simp [Expr.definitions]
  integer := by simp [Expr.definitions]
  string := by simp [Expr.definitions]
  unary := by simp [Expr.definitions]
  binary := by simp [Expr.definitions]
  conditional := by simp [Expr.definitions]
  alternative := by simp_all [Expr.definitions]
  call := by simp [Expr.definitions]
  function := by simp [Expr.definitions]
  block := by
    intro token statements h
    rw [Block.definitions, Stmt.definitionsOfAll_eq_flatMap, Block.visited,
      Stmt.visitedInAll_eq_flatMap, List.flatMap_assoc]
    exact List.flatMap_congr h
  definition := by simp [FunctionDefinition.definitions]
  expressionStmt := by simp [Stmt.definitions]
  blockStmt := by simp [Stmt.definitions]
  varStmt := by simp [Stmt.definitions]
  retStmt := by simp [Stmt.definitions]
  functionStmt := by simp [Stmt.definitions]
  entrypointStmt := by simp [Stmt.definitions]

theorem Stmt.checkedDefinitions_eq (checks : Checks) (statement : Stmt) :
    statement.checkedDefinitions checks =
      (if checks.nestedBlocks then statement.visited else [statement]).flatMap
        Stmt.ownDefinitions := by
  unfold checkedDefinitions
  split
  · exact hereditary_definitions.stmt statement
  · rw [List.flatMap_singleton]

/-! ## Programs one after the other -/

namespace SymbolTable

/-- Checks programs one after the other against one table. -/
def verifyPrograms (checks : Checks) (table : SymbolTable) : List Program → Findings
  | [] => ⟨table, []⟩
  | program :: others =>
    let found := table.verifyProgram checks program
    let rest := found.symbols.verifyPrograms checks others
    { rest with diagnostics := found.diagnostics ++ rest.diagnostics }

theorem verifyProgram_eq_checkAll (checks : Checks) (table : SymbolTable) (program : Program) :
    table.verifyProgram checks program =
      table.checkAll checks ((program.visited checks).flatMap Stmt.ownDefinitions) := by
  simp only [verifyProgram, Program.visited, Stmt.checkedDefinitions_eq, List.flatMap_assoc]

/-- The visited definitions are checked one after the other. -/
theorem verifyPrograms_eq_checkAll (checks : Checks) (table : SymbolTable)
    (programs : List Program) :
    table.verifyPrograms checks programs =
      table.checkAll checks (visitedDefinitions checks programs) := by
  induction programs generalizing table with
  | nil => rfl
  | cons program others ih =>
      have hvisited : visitedDefinitions checks (program :: others) =
          (program.visited checks).flatMap Stmt.ownDefinitions ++
            visitedDefinitions checks others := by
        simp [visitedDefinitions]
      rw [hvisited, checkAll_append, ← verifyProgram_eq_checkAll]
      simp only [verifyPrograms, ih]

end SymbolTable

/-! ## Entries of the table -/

/-- What a definition leaves in the table: of a variable its type, of a function its return type
and the types of its parameters, and of an entrypoint only that it is one. -/
inductive Definition.Leaves : Definition → Symbol → Prop where
  | variable {declaredType : TypeName} {name : Name} {value : Expr} :
    Leaves (.variable declaredType name value) (.variable declaredType.text)
  | function {definition : FunctionDefinition} {returnType : TypeName}
    (h : definition.returnType = some returnType) :
    Leaves (.function definition)
      (.function returnType.text (definition.parameters.map (·.declaredType.text)))
  | procedure {definition : FunctionDefinition} (h : definition.returnType = none) :
    Leaves (.function definition)
      (.function "void" (definition.parameters.map (·.declaredType.text)))
  | entrypoint {name : Name} : Leaves (.entrypoint name) .entrypoint

theorem Definition.leaves_symbol (definition : Definition) :
    definition.Leaves definition.symbol := by
  rcases definition with _ | ⟨token, name, parameters, returnType, body⟩ | _
  · exact .variable
  · cases returnType with
    | none => exact .procedure rfl
    | some returnType => exact .function rfl
  · exact .entrypoint

theorem Definition.Leaves.symbol_eq {definition : Definition} {symbol : Symbol}
    (h : definition.Leaves symbol) : definition.symbol = symbol := by
  rcases h with _ | htype | htype | _
  · rfl
  · simp [Definition.symbol, htype, FunctionDefinition.parameterTypes]
  · simp [Definition.symbol, Definition.voidType, htype, FunctionDefinition.parameterTypes]
  · rfl

/-- An entry of the table is what the first attempt at its name leaves there. -/
theorem SymbolTable.find?_verifyPrograms_eq_some_iff {checks : Checks} {programs : List Program}
    {name : String} {symbol : Symbol} :
    (empty.verifyPrograms checks programs).symbols.find? name = some symbol ↔
      ∃ earlier definition later,
        visitedDefinitions checks programs = earlier ++ definition :: later ∧
        (∀ other ∈ earlier, ¬ other.Attempts checks name) ∧
        definition.Attempts checks name ∧ definition.Leaves symbol := by
  rw [verifyPrograms_eq_checkAll, find?_checkAll, find?_empty, Option.none_or,
    Option.map_eq_some_iff]
  constructor
  · rintro ⟨definition, hfind, rfl⟩
    obtain ⟨hattempt, earlier, later, hvisited, hearlier⟩ :=
      List.find?_eq_some_iff_append.mp hfind
    exact ⟨earlier, definition, later, hvisited, by simpa using hearlier, by simpa using hattempt,
      definition.leaves_symbol⟩
  · rintro ⟨earlier, definition, later, hvisited, hearlier, hattempt, hleaves⟩
    exact ⟨definition, List.find?_eq_some_iff_append.mpr ⟨by simpa using hattempt, earlier, later,
      hvisited, by simpa using hearlier⟩, hleaves.symbol_eq⟩

/-- Variables, functions and entrypoints share one namespace, in which the first attempt at a
name wins.  A name is defined if there was an attempt at it, it stands for what the first one
makes of it, and no later program changes that.  The diagnostics are the complaints about the
visited definitions, in order, where a name is taken if there was an attempt at it before. -/
theorem verifyPrograms_firstAttempt (checks : Checks) (programs : List Program) :
    let visited := visitedDefinitions checks programs
    let found := SymbolTable.empty.verifyPrograms checks programs
    (∀ name, found.symbols.contains name ↔
        ∃ definition ∈ visited, definition.Attempts checks name) ∧
      (∀ name, found.symbols.find? name =
        (visited.find? (·.Attempts checks name)).map Definition.symbol) ∧
      (∀ more name,
        (SymbolTable.empty.verifyPrograms checks (programs ++ more)).symbols.find? name =
          (found.symbols.find? name).or
            (((visitedDefinitions checks more).find? (·.Attempts checks name)).map
              Definition.symbol)) ∧
      found.diagnostics =
        (visited.mapIdx fun index definition =>
          definition.complaints checks
            ((visited.take index).any (·.Attempts checks definition.name.text))).flatten := by
  intro visited found
  have hfound : found = SymbolTable.empty.checkAll checks visited :=
    SymbolTable.verifyPrograms_eq_checkAll checks SymbolTable.empty programs
  have hfind (name : String) : found.symbols.find? name =
      (visited.find? (·.Attempts checks name)).map Definition.symbol := by
    rw [hfound, SymbolTable.find?_checkAll, SymbolTable.find?_empty, Option.none_or]
  refine ⟨fun name => ?_, hfind, fun more name => ?_, ?_⟩
  · simp [SymbolTable.contains, hfind]
  · have hmore : visitedDefinitions checks (programs ++ more) =
        visited ++ visitedDefinitions checks more := by
      simp [visited, visitedDefinitions]
    rw [SymbolTable.verifyPrograms_eq_checkAll, hmore, SymbolTable.find?_checkAll, hfind,
      List.find?_append, Option.map_or, SymbolTable.find?_empty, Option.none_or]
  · rw [hfound, SymbolTable.diagnostics_checkAll]
    simp [SymbolTable.contains]

end LineScript
