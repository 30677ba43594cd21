import LineScript.Parsing.Program

/-!
# What never fails

A block and a program record the failures of their statements and go on, so neither of
them fails.  Only running into the bound on recursion could keep them from a result.
-/

namespace LineScript

namespace Parser

variable {α β : Type}

/-- A parser that never fails. -/
def Persists (parser : Parser α) : Prop :=
  ∀ cursor diagnostic, (parser cursor).verdict ≠ .failure diagnostic

theorem persists_of_success {parser : Parser α}
    (h : ∀ cursor, ∃ value recorded reached, parser cursor = ⟨.success value, recorded, reached⟩) :
    parser.Persists := by
  intro cursor diagnostic
  obtain ⟨value, recorded, reached, hparser⟩ := h cursor
  simp [hparser]

theorem persists_pure (value : α) : (pure value : Parser α).Persists :=
  persists_of_success fun cursor => ⟨value, [], cursor, rfl⟩

theorem persists_current : current.Persists :=
  persists_of_success fun cursor => ⟨cursor.current, [], cursor, rfl⟩

theorem persists_advance : advance.Persists :=
  persists_of_success fun cursor => ⟨(), [], cursor.advance, rfl⟩

theorem persists_atKind (kind : TokenKind) : (atKind kind).Persists :=
  persists_of_success fun cursor => ⟨cursor.current.kind = kind, [], cursor, rfl⟩

theorem persists_record (diagnostic : Diagnostic) : (record diagnostic).Persists :=
  persists_of_success fun cursor => ⟨(), [diagnostic], cursor, rfl⟩

theorem persists_recover (diagnostic : Diagnostic) : (recover diagnostic).Persists :=
  persists_of_success fun cursor =>
    ⟨(), [diagnostic], Cursor.resync 0 cursor.current cursor.upcoming, rfl⟩

theorem persists_exhausted : (exhausted : Parser α).Persists := by
  intro cursor diagnostic
  simp [exhausted]

theorem persists_attempt (parser : Parser α) : parser.attempt.Persists := by
  intro cursor diagnostic
  unfold attempt
  split <;> simp

theorem Persists.bind {first : Parser α} {next : α → Parser β} (h : first.Persists)
    (hnext : ∀ value, (next value).Persists) : (first >>= next).Persists := by
  intro cursor diagnostic
  cases hfirst : first cursor with
  | mk verdict recorded reached =>
      cases verdict with
      | success value =>
          rw [bind_of_success hfirst]
          exact hnext value reached diagnostic
      | failure failure =>
          have hnot := h cursor failure
          rw [hfirst] at hnot
          exact absurd rfl hnot
      | exhausted => simp [bind_of_exhausted hfirst]

/-! ## Blocks -/

variable {grammar : Grammar} {parts : Parts}

theorem persists_skipLineEnd : skipLineEnd.Persists := by
  apply (persists_atKind _).bind
  intro atLineEnd
  cases atLineEnd with
  | true => exact persists_advance.bind fun _ => persists_pure _
  | false => exact persists_pure _

theorem persists_blockBody (h : parts.statements.Persists) : (blockBody parts).Persists := by
  apply h.bind
  intro statements
  apply persists_current.bind
  intro last
  split
  · exact (persists_record _).bind fun _ => persists_pure _
  · exact persists_pure _

theorem persists_block (h : parts.statements.Persists) : (block parts).Persists := by
  apply persists_current.bind
  intro token
  apply persists_advance.bind
  intro _
  apply persists_skipLineEnd.bind
  intro _
  exact (persists_blockBody h).bind fun _ => persists_pure _

theorem persists_statementsBy (h : parts.statements.Persists) (one : Parser (Option Stmt)) :
    (statementsBy one parts).Persists := by
  apply persists_current.bind
  intro token
  split
  · exact persists_pure _
  split
  · exact persists_advance.bind fun _ => h
  apply (persists_attempt one).bind
  intro result
  cases result with
  | ok statement => exact persists_advance.bind fun _ => h.bind fun _ => persists_pure _
  | error diagnostic =>
      apply (persists_recover diagnostic).bind
      intro _
      apply persists_current.bind
      intro reached
      split
      · exact persists_pure _
      · exact persists_advance.bind fun _ => h

/-! ## Programs -/

theorem persists_program (h : parts.program.Persists) : (program grammar parts).Persists := by
  apply (persists_atKind _).bind
  intro atEnd
  split
  · exact persists_pure _
  apply (persists_attempt _).bind
  intro result
  cases result with
  | ok statement => exact persists_advance.bind fun _ => h.bind fun _ => persists_pure _
  | error diagnostic =>
      apply (persists_recover diagnostic).bind
      intro _
      exact persists_advance.bind fun _ => h

end Parser

namespace Grammar

theorem persists_parts_statements (grammar : Grammar) (depth : Nat) :
    (grammar.parts depth).statements.Persists := by
  induction depth with
  | zero => exact Parser.persists_exhausted
  | succ depth ih => exact Parser.persists_statementsBy ih _

theorem persists_parts_program (grammar : Grammar) (depth : Nat) :
    (grammar.parts depth).program.Persists := by
  induction depth with
  | zero => exact Parser.persists_exhausted
  | succ depth ih => exact Parser.persists_program ih

end Grammar

end LineScript
