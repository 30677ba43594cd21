import LineScript.Proofs.Parsing.Depth
import LineScript.Proofs.Parsing.Persistence

/-!
# Reading a program

A program never fails and is never exhausted, so every token list has one.  It is read
statement by statement, and a broken statement is recorded and skipped.
-/

namespace LineScript

namespace Grammar

variable {room : Nat} {cursor reached last : Cursor} {others : List Stmt}
variable {recorded more : List Diagnostic}

/-- With room for it, every program has statements. -/
theorem exists_program (h : cursor.Within room) :
    ∃ statements recorded last,
      (standard.parts room).program cursor = ⟨.success statements, recorded, last⟩ := by
  have hne := (program_agree (Nat.le_refl room) (Nat.le_refl room) h).verdict_ne
  have hpersists := persists_parts_program standard room cursor
  cases hprogram : (standard.parts room).program cursor with
  | mk verdict recorded last =>
      rw [hprogram] at hne hpersists
      cases verdict with
      | success statements => exact ⟨statements, recorded, last, rfl⟩
      | failure diagnostic => exact absurd rfl (hpersists diagnostic)
      | exhausted => exact absurd rfl hne

/-! ## One statement of a program -/

theorem program_of_endOfInput (h : cursor.Within room)
    (hend : cursor.current.kind = .endOfInput) :
    (standard.parts room).program cursor = ⟨.success [], [], cursor⟩ := by
  rw [program_eq h]
  simp [Parser.program, hend]

theorem program_of_statement (h : cursor.Within room)
    (hcurrent : cursor.current.kind ≠ .endOfInput) {statement : Option Stmt}
    (hstatement : Parser.statement standard (standard.parts room) cursor =
      ⟨.success statement, recorded, reached⟩)
    (hothers : (standard.parts room).program reached.advance = ⟨.success others, more, last⟩) :
    (standard.parts room).program cursor =
      ⟨.success (statement.toList ++ others), recorded ++ more, last⟩ := by
  rw [program_eq h]
  simp [Parser.program, hcurrent, Parser.bind_of_success (Parser.attempt_of_success hstatement),
    Parser.bind_of_success hothers]

theorem program_of_failure (h : cursor.Within room)
    (hcurrent : cursor.current.kind ≠ .endOfInput) {diagnostic : Diagnostic}
    (hstatement : Parser.statement standard (standard.parts room) cursor =
      ⟨.failure diagnostic, recorded, reached⟩)
    (hothers : (standard.parts room).program
        (Cursor.resync 0 reached.current reached.upcoming).advance =
      ⟨.success others, more, last⟩) :
    (standard.parts room).program cursor =
      ⟨.success others, recorded ++ diagnostic :: more, last⟩ := by
  have hrecover : Parser.recover diagnostic reached =
      ⟨.success (), [diagnostic], Cursor.resync 0 reached.current reached.upcoming⟩ := rfl
  rw [program_eq h]
  simp [Parser.program, hcurrent, Parser.bind_of_success (Parser.attempt_of_failure hstatement),
    Parser.bind_of_success hrecover, hothers]

end Grammar

theorem parse_eq {list : List Token} {room : Nat} {statements : List Stmt}
    {recorded : List Diagnostic} {last : Cursor} (h : (Cursor.ofTokens list).Within room)
    (hprogram : (Grammar.standard.parts room).program (Cursor.ofTokens list) =
      ⟨.success statements, recorded, last⟩) :
    parse list = ⟨⟨statements⟩, recorded⟩ := by
  have hwithin := (Cursor.closed_ofTokens list).within_depth
  rw [Grammar.program_eq_of_within h hwithin,
    Grammar.program_eq hwithin] at hprogram
  simp only [parse, parseIn, Cursor.parts, hprogram]

/-- What is known where a whole program has been read, and what a parser reads that sees no
positions. -/
theorem exists_parse (tracing : Tracing) (blind : Bool) (faithful : Prop) {list : List Token}
    (hat : tracing.At .here 2 0 [] ⟨[], Cursor.ofTokens list⟩) :
    ∃ last, (Cursor.ofTokens list).Reaches last ∧ last.current.kind = .endOfInput ∧
      (faithful → Stmt.FaithfulAll (parse list).program.statements) ∧
      tracing.At .stops 0 0 (Stmt.tokensAll (parse list).program.statements)
        ⟨(parse list).diagnostics, last⟩ ∧
      (Grammar.standard.parts (Cursor.ofTokens list).depth).program
          (erase blind (Cursor.ofTokens list)) =
        ⟨.success (erase blind (parse list).program.statements),
          (parse list).diagnostics.map (erase blind), erase blind last⟩ := by
  have hwithin := (Cursor.closed_ofTokens list).within_depth
  obtain ⟨statements, recorded, last, hprogram⟩ := Grammar.exists_program hwithin
  have htraces := (tracing.allowsExhaustion blind False faithful id).onProgram
    (tracing.readsPrograms _ _ _) (Cursor.ofTokens list).depth 0 0 [] ⟨[], Cursor.ofTokens list⟩ hat
  obtain ⟨hreaches, _, hother, ⟨hfaithful, rfl, hstops⟩, hlast⟩ := htraces.of_success hprogram
  rw [parse_eq hwithin hprogram]
  exact ⟨last, hreaches, hlast, hfaithful, hstops, hother⟩

end LineScript
