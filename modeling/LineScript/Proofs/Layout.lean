import LineScript.Compilation
import LineScript.Proofs.Lexing.Segmentation
import LineScript.Proofs.Parsing.Layout
import LineScript.Proofs.Tree.Induction
import Mathlib.Data.List.Forall2

/-!
# Layout does not change meaning

Parsing and verification look at the kinds and texts of tokens and never at their positions.
So token lists that differ in positions only have the same program, the same diagnostics and
the same symbols, and texts that differ only in their blanks and in what their comments say
compile to the same.
-/

namespace LineScript

/-! ## Verification does not look at positions -/

/-- The definition without its positions. -/
def Definition.unplaced : Definition → Definition
  | .variable declaredType name value =>
    .variable declaredType.unplaced name.unplaced value.unplaced
  | .function definition => .function definition.unplaced
  | .entrypoint name => .entrypoint name.unplaced

/-- The findings without their positions.  A symbol table has none. -/
def Findings.unplaced (findings : Findings) : Findings :=
  { findings with diagnostics := findings.diagnostics.map Diagnostic.unplaced }

theorem Expr.literalType_unplaced (value : Expr) :
    value.unplaced.literalType = value.literalType := by
  cases value with
  | conditional _ _ _ alternative => cases alternative <;> rfl
  | _ => rfl

theorem Expr.token_unplaced (value : Expr) : value.unplaced.token = value.token.unplaced := by
  cases value with
  | conditional _ _ _ alternative => cases alternative <;> rfl
  | function definition => obtain ⟨_, _, _, _, _⟩ := definition; rfl
  | _ => rfl

namespace Definition

theorem name_unplaced (definition : Definition) :
    definition.unplaced.name = definition.name.unplaced := by
  rcases definition with _ | ⟨⟨_, _, _, _, _⟩⟩ | _ <;> rfl

theorem symbol_unplaced (definition : Definition) :
    definition.unplaced.symbol = definition.symbol := by
  rcases definition with _ | ⟨⟨_, _, parameters, returnType, _⟩⟩ | _
  · rfl
  · cases returnType <;>
      simp [unplaced, symbol, FunctionDefinition.unplaced, FunctionDefinition.parameterTypes,
        Parameter.unplaced, TypeName.unplaced]
  · rfl

end Definition

namespace SymbolTable

theorem make_unplaced (table : SymbolTable) (definition : Definition) :
    table.make definition.unplaced = (table.make definition).unplaced := by
  unfold make define
  rw [Definition.name_unplaced, Definition.symbol_unplaced]
  by_cases isNew : table.contains definition.name.text = false
  · simp [Name.unplaced, isNew, Findings.unplaced]
  · simp [Name.unplaced, isNew, Findings.unplaced, Diagnostic.unplaced, Token.unplaced]

theorem mismatch_unplaced (declaredType : TypeName) (name : Name) (value : Expr) :
    mismatch declaredType.unplaced name.unplaced value.unplaced =
      (mismatch declaredType name value).map Diagnostic.unplaced := by
  unfold mismatch
  rw [value.literalType_unplaced, value.token_unplaced]
  by_cases h : value.literalType = declaredType.text
  · simp [TypeName.unplaced, h]
  · simp [TypeName.unplaced, Name.unplaced, Diagnostic.unplaced, Token.unplaced, h]

theorem check_unplaced (checks : Checks) (table : SymbolTable) (definition : Definition) :
    table.check checks definition.unplaced = (table.check checks definition).unplaced := by
  have hmake := table.make_unplaced definition
  rcases definition with ⟨declaredType, name, value⟩ | definition | name
  · rw [Definition.unplaced] at hmake ⊢
    simp only [check, hmake, mismatch_unplaced, Findings.unplaced, List.map_append]
  · rw [Definition.unplaced] at hmake ⊢
    by_cases hchecked : checks.functionSignatures = true
    · simp only [check, hmake, hchecked, if_true]
    · simp [check, hchecked, Findings.unplaced]
  · rw [Definition.unplaced] at hmake ⊢
    by_cases hallowed : Entrypoint.isAllowed name.text = true
    · simp only [check, Name.unplaced, hallowed, if_true]
      exact hmake
    · simp only [check, hmake]
      simp [Name.unplaced, hallowed, Findings.unplaced, Diagnostic.unplaced, Token.unplaced]

theorem checkAll_unplaced (checks : Checks) (table : SymbolTable)
    (definitions : List Definition) :
    table.checkAll checks (definitions.map Definition.unplaced) =
      (table.checkAll checks definitions).unplaced := by
  induction definitions generalizing table with
  | nil => rfl
  | cons definition others ih =>
      rw [List.map_cons, checkAll, checkAll, check_unplaced, Findings.unplaced, ih]
      simp [Findings.unplaced]

end SymbolTable

/-- The definitions of a tree without positions are those of the tree, without positions. -/
theorem hereditary_definitions_unplaced :
    Hereditary (fun value => value.unplaced.definitions = value.definitions.map .unplaced)
      (fun block => block.unplaced.definitions = block.definitions.map .unplaced)
      (fun definition => definition.unplaced.definitions = definition.definitions.map .unplaced)
      (fun statement => statement.unplaced.definitions = statement.definitions.map .unplaced) where
  identifier _ := rfl
  boolean _ _ := rfl
  integer _ _ := rfl
  string _ _ := rfl
  unary _ _ _ _ := rfl
  binary _ _ _ _ _ _ := rfl
  conditional _ _ _ _ hconsequence := hconsequence
  alternative := by
    intro token condition consequence alternative _ hconsequence halternative
    simp only [Expr.unplaced, Expr.definitions, List.map_append, hconsequence, halternative]
  call _ _ _ _ _ := rfl
  function _ hdefinition := hdefinition
  block := by
    intro token statements hstatements
    rw [Block.unplaced, Stmt.unplacedAll_eq_map, Block.definitions, Block.definitions]
    induction statements with
    | nil => rfl
    | cons statement others ih =>
        obtain ⟨hstatement, hothers⟩ := List.forall_mem_cons.mp hstatements
        rw [List.map_cons, Stmt.definitionsOfAll, Stmt.definitionsOfAll, List.map_append,
          hstatement, ih hothers]
  definition := by
    intro token name parameters returnType body hbody
    rw [FunctionDefinition.unplaced, FunctionDefinition.definitions, hbody]
    rfl
  expressionStmt _ _ hvalue := hvalue
  blockStmt _ hcontent := hcontent
  varStmt _ _ _ _ _ := rfl
  retStmt _ _ hvalue := hvalue
  functionStmt _ hdefinition := hdefinition
  entrypointStmt := by
    intro token name body hbody
    rw [Stmt.unplaced, Stmt.definitions, hbody]
    rfl

theorem Stmt.ownDefinitions_unplaced (statement : Stmt) :
    statement.unplaced.ownDefinitions = statement.ownDefinitions.map .unplaced := by
  cases statement <;> rfl

theorem Stmt.checkedDefinitions_unplaced (checks : Checks) (statement : Stmt) :
    statement.unplaced.checkedDefinitions checks =
      (statement.checkedDefinitions checks).map .unplaced := by
  unfold checkedDefinitions
  split
  · exact hereditary_definitions_unplaced.stmt statement
  · exact statement.ownDefinitions_unplaced

theorem verify_unplaced (checks : Checks) (program : Program) :
    verify checks program.unplaced = (verify checks program).unplaced := by
  have hdefinitions :
      program.unplaced.statements.flatMap (·.checkedDefinitions checks) =
        (program.statements.flatMap (·.checkedDefinitions checks)).map .unplaced := by
    simp only [Program.unplaced, List.flatMap_map, List.map_flatMap,
      Stmt.checkedDefinitions_unplaced]
  unfold verify SymbolTable.verifyProgram
  rw [hdefinitions, SymbolTable.checkAll_unplaced]

/-! ## Tokens that differ in positions only -/

theorem Diagnostic.map_cause_of_map_unplaced {left right : List Diagnostic}
    (h : left.map unplaced = right.map unplaced) : left.map cause = right.map cause := by
  have hcauses := congrArg (List.map cause) h
  rw [List.map_map, List.map_map] at hcauses
  exact hcauses

variable {left right : List Token}

theorem Token.Alike.parse_eq (h : Token.Alike left right) :
    (parse left).program.unplaced = (parse right).program.unplaced ∧
      (parse left).diagnostics.map Diagnostic.cause =
        (parse right).diagnostics.map Diagnostic.cause := by
  have hparse := parse_unplaced left
  rw [h, parse_unplaced] at hparse
  obtain ⟨hprogram, hdiagnostics⟩ := Parsed.mk.inj hparse
  exact ⟨hprogram.symm, Diagnostic.map_cause_of_map_unplaced hdiagnostics.symm⟩

theorem verify_eq_of_unplaced_eq {first second : Program} (h : first.unplaced = second.unplaced)
    (checks : Checks) :
    (verify checks first).diagnostics.map Diagnostic.cause =
        (verify checks second).diagnostics.map Diagnostic.cause ∧
      (verify checks first).symbols = (verify checks second).symbols := by
  have hverify := verify_unplaced checks first
  rw [h, verify_unplaced] at hverify
  obtain ⟨hsymbols, hdiagnostics⟩ := Findings.mk.inj hverify
  exact ⟨Diagnostic.map_cause_of_map_unplaced hdiagnostics.symm, hsymbols.symm⟩

/-! ## Texts that differ in blanks and comments only -/

/-- The lexeme ends its line and does nothing else: it is a line end or a comment. -/
def IsLineEnd (spelling : List Char) : Prop :=
  spelling = ['\n'] ∨ ∃ body, spelling = '/' :: '/' :: body

/-- The lexemes are spelled alike, or both only end their line. -/
def Segment.SameLexeme (left right : Segment) : Prop :=
  left.spelling = right.spelling ∨ IsLineEnd left.spelling ∧ IsLineEnd right.spelling

/-- The texts have the same lexemes.  What blanks stand between them, and what the comments say,
may differ. -/
def DifferInLayout (source other : String) : Prop :=
  ∃ segments others, Segmentation source.toList segments ∧ Segmentation other.toList others ∧
    List.Forall₂ Segment.SameLexeme segments others

/-- The compilations have the same program and the same complaints, up to positions. -/
structure Compilation.Alike (left right : Compilation) : Prop where
  program_eq : left.program.unplaced = right.program.unplaced
  syntax_eq : left.syntaxDiagnostics.map Diagnostic.cause =
    right.syntaxDiagnostics.map Diagnostic.cause
  verification_eq : left.verificationDiagnostics.map Diagnostic.cause =
    right.verificationDiagnostics.map Diagnostic.cause

namespace Lexeme

variable {spelling rest behind : List Char} {kind other : TokenKind} {text otherText : String}

/-- What follows a lexeme decides where it ends, and nothing else. -/
theorem eq_of_spelling (h : Lexeme spelling rest kind text)
    (hother : Lexeme spelling behind other otherText) : kind = other ∧ text = otherText := by
  obtain ⟨first, taken, rfl, htakes⟩ := h.exists_takes
  obtain ⟨_, _, hspelling, hotherTakes⟩ := hother.exists_takes
  obtain ⟨rfl, rfl⟩ := List.cons.inj hspelling
  exact ⟨htakes.kind_eq.symm.trans hotherTakes.kind_eq,
    htakes.text_eq.symm.trans hotherTakes.text_eq⟩

theorem eq_of_isLineEnd (h : Lexeme spelling rest kind text) (hend : IsLineEnd spelling) :
    kind = .newline ∧ text = "\n" := by
  obtain ⟨first, taken, rfl, htakes⟩ := h.exists_takes
  rw [← htakes.kind_eq, ← htakes.text_eq]
  rcases hend with hline | ⟨body, hcomment⟩
  · obtain ⟨rfl, rfl⟩ := List.cons.inj hline
    exact ⟨rfl, rfl⟩
  · obtain ⟨rfl, rfl⟩ := List.cons.inj hcomment
    exact ⟨rfl, rfl⟩

end Lexeme

/-- Every segment of a text holds a lexeme. -/
theorem Segmentation.exists_lexeme {chars : List Char} {segments : List Segment}
    (h : Segmentation chars segments) :
    ∀ segment ∈ segments, ∃ rest, Lexeme segment.spelling rest segment.kind segment.text := by
  induction h with
  | nil => simp
  | cons _ hlexeme _ ih => exact List.forall_mem_cons.mpr ⟨⟨_, hlexeme⟩, ih⟩

/-- Segments with the same lexemes make tokens that differ in positions only. -/
theorem Segment.alike_tokens {segments others : List Segment}
    (h : List.Forall₂ SameLexeme segments others)
    (hsegments : ∀ segment ∈ segments,
      ∃ rest, Lexeme segment.spelling rest segment.kind segment.text)
    (hothers : ∀ segment ∈ others,
      ∃ rest, Lexeme segment.spelling rest segment.kind segment.text)
    (position otherPosition : Position) :
    Token.Alike (tokens position segments) (tokens otherPosition others) := by
  induction h generalizing position otherPosition with
  | nil => rfl
  | @cons segment other _ _ hsame _ ih =>
      obtain ⟨⟨_, hlexeme⟩, hsegments⟩ := List.forall_mem_cons.mp hsegments
      obtain ⟨⟨_, hother⟩, hothers⟩ := List.forall_mem_cons.mp hothers
      have heq : segment.kind = other.kind ∧ segment.text = other.text := by
        rcases hsame with hspelling | ⟨hend, hotherEnd⟩
        · rw [hspelling] at hlexeme
          exact hlexeme.eq_of_spelling hother
        · obtain ⟨hkind, htext⟩ := hlexeme.eq_of_isLineEnd hend
          obtain ⟨hotherKind, hotherText⟩ := hother.eq_of_isLineEnd hotherEnd
          exact ⟨hkind.trans hotherKind.symm, htext.trans hotherText.symm⟩
      exact congrArg₂ List.cons (Token.unplaced_eq_iff.mpr heq)
        (ih hsegments hothers _ _)

theorem DifferInLayout.exists_tokenize {source other : String} (h : DifferInLayout source other) :
    ∃ tokens others, tokenize source = .ok tokens ∧ tokenize other = .ok others ∧
      Token.Alike tokens others := by
  obtain ⟨segments, others, hsource, hother, hsame⟩ := h
  refine ⟨_, _, hsource.tokens_eq .start, hother.tokens_eq .start, ?_⟩
  have halike := Segment.alike_tokens hsame hsource.exists_lexeme hother.exists_lexeme .start .start
  rw [Token.Alike, List.map_append, List.map_append, halike]
  rfl

/-- Layout does not change meaning.  Token lists that differ in positions only have the same
program, up to positions, the same complaints about its syntax, and on verification the same
complaints and the same symbols.  So texts that differ only in the blanks between their lexemes
and in what their comments say compile to the same. -/
theorem layout_irrelevant :
    (∀ left right : List Token, Token.Alike left right →
      (parse left).program.unplaced = (parse right).program.unplaced ∧
      (parse left).diagnostics.map Diagnostic.cause =
        (parse right).diagnostics.map Diagnostic.cause ∧
      ∀ checks,
        (verify checks (parse left).program).diagnostics.map Diagnostic.cause =
          (verify checks (parse right).program).diagnostics.map Diagnostic.cause ∧
        (verify checks (parse left).program).symbols =
          (verify checks (parse right).program).symbols) ∧
    ∀ source other : String, DifferInLayout source other → ∀ checks,
      ∃ compilation otherCompilation,
        compile checks source = .ok compilation ∧ compile checks other = .ok otherCompilation ∧
        compilation.Alike otherCompilation := by
  refine ⟨fun left right h => ?_, fun source other h checks => ?_⟩
  · obtain ⟨hprogram, hdiagnostics⟩ := h.parse_eq
    exact ⟨hprogram, hdiagnostics, verify_eq_of_unplaced_eq hprogram⟩
  · obtain ⟨tokens, others, htokens, hothers, halike⟩ := h.exists_tokenize
    obtain ⟨hprogram, hdiagnostics⟩ := halike.parse_eq
    refine ⟨.ofTokens checks tokens, .ofTokens checks others, ?_, ?_, hprogram, hdiagnostics,
      (verify_eq_of_unplaced_eq hprogram checks).1⟩
    · rw [compile, htokens]
      rfl
    · rw [compile, hothers]
      rfl

/-- A sign, a comment and another sign, with blanks between them and without. -/
theorem differInLayout_signs : DifferInLayout "+ //a\n\t-" "+//\n-" := by
  have hplus (rest : List Char) : Lexeme ['+'] rest .plus "+" := .sign .plus
  have hdash : Lexeme ['-'] [] .dash "-" := .sign .dash
  have hblank {c : Char} (h : IsSeparator c) : ∀ b ∈ [c], IsSeparator b := by simpa using h
  refine ⟨[⟨[], ['+'], .plus, "+"⟩, ⟨[' '], "//a\n".toList, .newline, "\n"⟩,
      ⟨['\t'], ['-'], .dash, "-"⟩],
    [⟨[], ['+'], .plus, "+"⟩, ⟨[], "//\n".toList, .newline, "\n"⟩, ⟨[], ['-'], .dash, "-"⟩],
    ?_, ?_, ?_⟩
  · exact @Segmentation.cons [] _ _ _ _ _ (by simp) (hplus _)
      (@Segmentation.cons [' '] _ _ _ _ _ (hblank ⟨rfl, by decide⟩)
        (@Lexeme.comment ['a'] _ (by decide))
        (@Segmentation.cons ['\t'] _ _ _ _ _ (hblank ⟨rfl, by decide⟩) hdash (.nil (by simp))))
  · exact @Segmentation.cons [] _ _ _ _ _ (by simp) (hplus _)
      (@Segmentation.cons [] _ _ _ _ _ (by simp) (@Lexeme.comment [] _ (by decide))
        (@Segmentation.cons [] _ _ _ _ _ (by simp) hdash (.nil (by simp))))
  · exact .cons (.inl rfl) (.cons (.inr ⟨.inr ⟨_, rfl⟩, .inr ⟨_, rfl⟩⟩) (.cons (.inl rfl) .nil))

/-- In both texts no value begins with the first sign, and none follows the second. -/
theorem layout_irrelevant_signs :
    DifferInLayout "+ //a\n\t-" "+//\n-" ∧
      ∃ compilation otherCompilation,
        compile .strict "+ //a\n\t-" = .ok compilation ∧
        compile .strict "+//\n-" = .ok otherCompilation ∧
        compilation.Alike otherCompilation ∧
        compilation.diagnostics.map Diagnostic.position = [⟨1, 1⟩, ⟨2, 2⟩] ∧
        otherCompilation.diagnostics.map Diagnostic.position = [⟨1, 1⟩, ⟨2, 1⟩] := by
  obtain ⟨compilation, otherCompilation, hcompile, hother, halike⟩ :=
    layout_irrelevant.2 _ _ differInLayout_signs .strict
  have hpositions : (compile .strict "+ //a\n\t-").map (·.diagnostics.map Diagnostic.position) =
      .ok [⟨1, 1⟩, ⟨2, 2⟩] := by
    decide +kernel
  have hotherPositions : (compile .strict "+//\n-").map
      (·.diagnostics.map Diagnostic.position) = .ok [⟨1, 1⟩, ⟨2, 1⟩] := by
    decide +kernel
  rw [hcompile] at hpositions
  rw [hother] at hotherPositions
  exact ⟨differInLayout_signs, compilation, otherCompilation, hcompile, hother, halike,
    Except.ok.inj hpositions, Except.ok.inj hotherPositions⟩

end LineScript
