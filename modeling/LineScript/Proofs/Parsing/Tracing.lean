import LineScript.Proofs.Parsing.Rules

/-!
# Parsers followed side by side

Two parsers that see the same tokens are followed until they stop: the second may have another
bound on its recursion, or see no positions.  They stop at the same token with the same verdict
and the same diagnostics, and what is kept an eye on besides is stated of what has been recorded
and of where they are.  The judgments on depth, on kept tokens, on diagnostics and on positions
are all of this kind, and differ in what they say about the current token only.
-/

namespace LineScript

namespace Cursor

/-- The cursor without positions. -/
def unplaced (cursor : Cursor) : Cursor :=
  ⟨cursor.current.unplaced, cursor.upcoming.map Token.unplaced⟩

instance : Placed Cursor := ⟨unplaced⟩

variable {blind : Bool} (cursor : Cursor)

theorem current_erase : (erase blind cursor).current = erase blind cursor.current := by
  cases blind <;> rfl

theorem peek_erase : (erase blind cursor).peek = erase blind cursor.peek := by
  obtain ⟨current, upcoming⟩ := cursor
  cases blind <;> cases upcoming <;> rfl

theorem advance_erase : (erase blind cursor).advance = erase blind cursor.advance := by
  obtain ⟨current, upcoming⟩ := cursor
  cases blind <;> cases upcoming <;> rfl

theorem resync_unplaced (depth : Nat) (current : Token) (upcoming : List Token) :
    resync depth current.unplaced (upcoming.map Token.unplaced) =
      (resync depth current upcoming).unplaced := by
  fun_induction resync depth current upcoming <;> simp_all [resync, unplaced]

theorem resync_erase :
    resync 0 (erase blind cursor).current (erase blind cursor).upcoming =
      erase blind (resync 0 cursor.current cursor.upcoming) := by
  cases blind
  · rfl
  · exact resync_unplaced 0 cursor.current cursor.upcoming

end Cursor

/-- What has been recorded, and where a parser is. -/
structure Trace where
  recorded : List Diagnostic
  cursor : Cursor

/-- The trace one token further. -/
def Trace.advance (trace : Trace) : Trace :=
  ⟨trace.recorded, trace.cursor.advance⟩

instance : Located Trace where
  cursor := Trace.cursor
  advance := Trace.advance
  cursor_advance _ := rfl

namespace Parser

variable {α β : Type}

/-- From a trace on, two parsers come to the same end.  If they succeed, `post` holds of their
values and of the trace that they leave; if they fail, `fails` does; they are exhausted only if
they may be. -/
inductive Traces (blind : Bool) (total : Prop) (fails : Diagnostic → Trace → Prop)
    (post : α → α → Trace → Prop) (first second : Parser α) (s : Trace) : Prop where
  | success {value other : α} {recorded : List Diagnostic} {reached : Cursor}
    (hfirst : first s.cursor = ⟨.success value, recorded, reached⟩)
    (hsecond : second (erase blind s.cursor) =
      ⟨.success other, recorded.map (erase blind), erase blind reached⟩)
    (hreaches : s.cursor.Reaches reached)
    (h : post value other ⟨s.recorded ++ recorded, reached⟩) :
    Traces blind total fails post first second s
  | failure {diagnostic : Diagnostic} {recorded : List Diagnostic} {reached : Cursor}
    (hfirst : first s.cursor = ⟨.failure diagnostic, recorded, reached⟩)
    (hsecond : second (erase blind s.cursor) =
      ⟨.failure (erase blind diagnostic), recorded.map (erase blind), erase blind reached⟩)
    (hreaches : s.cursor.Reaches reached)
    (h : fails diagnostic ⟨s.recorded ++ recorded, reached⟩) :
    Traces blind total fails post first second s
  | exhausted {recorded : List Diagnostic} {reached : Cursor}
    (hfirst : first s.cursor = ⟨.exhausted, recorded, reached⟩)
    (hsecond : second (erase blind s.cursor) =
      ⟨.exhausted, recorded.map (erase blind), erase blind reached⟩)
    (hreaches : s.cursor.Reaches reached) (h : ¬total) :
    Traces blind total fails post first second s

namespace Traces

variable {blind : Bool} {total : Prop} {fails : Diagnostic → Trace → Prop}
variable {post : α → α → Trace → Prop} {post' : β → β → Trace → Prop}
variable {first second first' second' : Parser α} {s : Trace}

theorem pure {value other : α} (h : post value other s) :
    Traces blind total fails post (Pure.pure value) (Pure.pure other) s :=
  .success rfl rfl (.refl _) (by rwa [List.append_nil])

/-- Steps that lead to another trace. -/
theorem step {t : Trace} {recorded : List Diagnostic}
    (hrecorded : t.recorded = s.recorded ++ recorded) (hreaches : s.cursor.Reaches t.cursor)
    (hfirst : first s.cursor = { first' t.cursor with
      recorded := recorded ++ (first' t.cursor).recorded })
    (hsecond : second (erase blind s.cursor) = { second' (erase blind t.cursor) with
      recorded := recorded.map (erase blind) ++ (second' (erase blind t.cursor)).recorded })
    (h : Traces blind total fails post first' second' t) :
    Traces blind total fails post first second s := by
  cases h with
  | success hfirst' hsecond' hreached hpost =>
      rw [hfirst'] at hfirst
      rw [hsecond', ← List.map_append] at hsecond
      rw [hrecorded, List.append_assoc] at hpost
      exact .success hfirst hsecond (hreaches.trans hreached) hpost
  | failure hfirst' hsecond' hreached hfails =>
      rw [hfirst'] at hfirst
      rw [hsecond', ← List.map_append] at hsecond
      rw [hrecorded, List.append_assoc] at hfails
      exact .failure hfirst hsecond (hreaches.trans hreached) hfails
  | exhausted hfirst' hsecond' hreached htotal =>
      rw [hfirst'] at hfirst
      rw [hsecond', ← List.map_append] at hsecond
      exact .exhausted hfirst hsecond (hreaches.trans hreached) htotal

theorem congr (hfirst : first s.cursor = first' s.cursor)
    (hsecond : second (erase blind s.cursor) = second' (erase blind s.cursor))
    (h : Traces blind total fails post first' second' s) :
    Traces blind total fails post first second s :=
  h.step (List.append_nil _).symm (.refl _) hfirst hsecond

theorem move (hfirst : first s.cursor = first' s.advance.cursor)
    (hsecond : second (erase blind s.cursor) = second' (erase blind s.advance.cursor))
    (h : Traces blind total fails post first' second' s.advance) :
    Traces blind total fails post first second s := by
  have hrecorded : s.advance.recorded = s.recorded ++ [] := (List.append_nil _).symm
  exact h.step hrecorded s.cursor.reaches_advance hfirst hsecond

theorem bind {next next' : α → Parser β} (h : Traces blind total fails post first second s)
    (hnext : ∀ value other t, post value other t →
      Traces blind total fails post' (next value) (next' other) t) :
    Traces blind total fails post' (first >>= next) (second >>= next') s := by
  cases h with
  | success hfirst hsecond hreaches hpost =>
      exact (hnext _ _ _ hpost).step rfl hreaches (bind_of_success hfirst _)
        (bind_of_success hsecond _)
  | failure hfirst hsecond hreaches hfails =>
      exact .failure (bind_of_failure hfirst _) (bind_of_failure hsecond _) hreaches hfails
  | exhausted hfirst hsecond hreaches htotal =>
      exact .exhausted (bind_of_exhausted hfirst _) (bind_of_exhausted hsecond _) hreaches htotal

theorem mono {other : α → α → Trace → Prop} (h : Traces blind total fails post first second s)
    (hother : ∀ value result t, post value result t → other value result t) :
    Traces blind total fails other first second s := by
  cases h with
  | success hfirst hsecond hreaches hpost =>
      exact .success hfirst hsecond hreaches (hother _ _ _ hpost)
  | failure hfirst hsecond hreaches hfails => exact .failure hfirst hsecond hreaches hfails
  | exhausted hfirst hsecond hreaches htotal => exact .exhausted hfirst hsecond hreaches htotal

/-- A failure about a token. -/
theorem fail {cause : Cause} {token : Token} (h : fails ⟨cause, token.position⟩ s) :
    Traces blind total fails post (Parser.fail ⟨cause, token.position⟩)
      (Parser.fail ⟨cause, (erase blind token).position⟩) s := by
  refine .failure rfl ?_ (.refl _) (by rwa [List.append_nil])
  cases blind <;> rfl

/-- A complaint about a token. -/
theorem record {post : Unit → Unit → Trace → Prop} {cause : Cause} {token : Token}
    (h : post () () ⟨s.recorded ++ [⟨cause, token.position⟩], s.cursor⟩) :
    Traces blind total fails post (Parser.record ⟨cause, token.position⟩)
      (Parser.record ⟨cause, (erase blind token).position⟩) s := by
  refine .success rfl ?_ (.refl _) h
  cases blind <;> rfl

theorem recover {diagnostic : Diagnostic} {post : Unit → Unit → Trace → Prop}
    (h : ∀ reached, s.cursor.Reaches reached → post () () ⟨s.recorded ++ [diagnostic], reached⟩) :
    Traces blind total fails post (Parser.recover diagnostic)
      (Parser.recover (erase blind diagnostic)) s := by
  have hreaches := Cursor.reaches_resync 0 s.cursor.current s.cursor.upcoming
  refine .success rfl ?_ hreaches (h _ hreaches)
  rw [Parser.recover, Cursor.resync_erase]
  rfl

/-- A failure becomes a value. -/
theorem attempt (h : Traces blind total fails post first second s) :
    Traces blind total fails
      (fun result result' t =>
        (∃ value other, result = .ok value ∧ result' = .ok other ∧ post value other t) ∨
        ∃ diagnostic, result = .error diagnostic ∧ result' = .error (erase blind diagnostic) ∧
          fails diagnostic t ∧ s.cursor.Reaches t.cursor)
      first.attempt second.attempt s := by
  cases h with
  | success hfirst hsecond hreaches hpost =>
      exact .success (attempt_of_success hfirst) (attempt_of_success hsecond) hreaches
        (.inl ⟨_, _, rfl, rfl, hpost⟩)
  | failure hfirst hsecond hreaches hfails =>
      exact .success (attempt_of_failure hfirst) (attempt_of_failure hsecond) hreaches
        (.inr ⟨_, rfl, rfl, hfails, hreaches⟩)
  | exhausted hfirst hsecond hreaches htotal =>
      exact .exhausted (attempt_of_exhausted hfirst) (attempt_of_exhausted hsecond) hreaches htotal

/-- What is known of parsers that succeed. -/
theorem of_success (h : Traces blind total fails post first second s) {value : α}
    {recorded : List Diagnostic} {reached : Cursor}
    (hfirst : first s.cursor = ⟨.success value, recorded, reached⟩) :
    s.cursor.Reaches reached ∧
      ∃ other, second (erase blind s.cursor) =
          ⟨.success other, recorded.map (erase blind), erase blind reached⟩ ∧
        post value other ⟨s.recorded ++ recorded, reached⟩ := by
  cases h with
  | success hsuccess hsecond hreaches hpost =>
      rw [hfirst] at hsuccess
      cases hsuccess
      exact ⟨hreaches, _, hsecond, hpost⟩
  | failure hfailure _ _ _ =>
      rw [hfirst] at hfailure
      cases hfailure
  | exhausted hexhausted _ _ _ =>
      rw [hfirst] at hexhausted
      cases hexhausted

end Traces

end Parser

/-- What is kept an eye on besides where two parsers are, and what complaints do to it.  Line ends
may be moved over everywhere. -/
structure Tracing extends Watch Trace where
  /-- What holds where a parser has failed. -/
  fails : Diagnostic → Trace → Prop
  lines : ∀ level s, Lines level s
  /-- Behind a broken statement of a program, reading goes on with any token. -/
  resume : ∀ {calls level kept s}, At .skipped (calls + 1) level kept s →
    At .here (calls + 3) level kept s.advance
  fail : ∀ {calls level kept s} (cause : Cause), At .here calls level kept s →
    fails ⟨cause, s.cursor.current.position⟩ s
  missing : ∀ {calls level kept s} (cause : Cause), At .past calls level kept s →
    fails ⟨cause, s.cursor.peek.position⟩ s
  note : ∀ {calls level kept s} (cause : Cause), At .here calls level kept s →
    At .here calls level kept ⟨s.recorded ++ [⟨cause, s.cursor.current.position⟩], s.cursor⟩
  unclosed : ∀ {calls level kept s} (cause : Cause), At .stops calls level kept s →
    s.cursor.current.kind = .endOfInput →
      At .closes calls level kept ⟨s.recorded ++ [⟨cause, s.cursor.current.position⟩], s.cursor⟩
  broken : ∀ {calls level kept s t} {diagnostic : Diagnostic},
    At .here (calls + 2) level kept s → s.cursor.current.kind ≠ .endOfInput →
      s.cursor.Reaches t.cursor → fails diagnostic t →
        At (.broken diagnostic) (calls + 1) level kept t
  recover : ∀ {calls level kept s} {diagnostic : Diagnostic} {reached : Cursor},
    At (.broken diagnostic) calls level kept s → s.cursor.Reaches reached →
      At .skipped calls level kept ⟨s.recorded ++ [diagnostic], reached⟩

namespace Tracing

variable (tracing : Tracing) (blind : Bool) (total faithful : Prop)

/-- Two parsers come to the same end, and what is kept an eye on is known there. -/
def judgment : Judgment Trace where
  toWatch := tracing.toWatch
  other s := erase blind s.cursor
  blind := blind
  faithful := faithful
  guard := id
  Holds _ := Parser.Traces blind total tracing.fails
  other_advance s := s.cursor.advance_erase.symm
  current_eq _ := Cursor.current_erase _
  peek_eq _ := Cursor.peek_erase _
  congr := .congr
  move := .move
  pure := .pure
  bind := .bind
  frame _ h := h.mono fun _ _ _ hpost => ⟨hpost, tracing.lines _ _⟩
  nest _ h := h
  fail h := .fail (tracing.fail _ h)
  missing _ h := .fail (tracing.missing _ h)
  note _ h := .record ⟨rfl, tracing.note _ h⟩
  unclosed _ h hend := .record (tracing.unclosed _ h hend)
  recover h := .recover fun _ hreaches => tracing.recover h hreaches
  attempt h hend hparser := hparser.attempt.mono fun _ _ _ hresult =>
    hresult.imp_right fun ⟨diagnostic, hfirst, hsecond, hfails, hreaches⟩ =>
      ⟨diagnostic, hfirst, hsecond, tracing.broken h hend hreaches hfails⟩

theorem readsPrograms : (tracing.judgment blind total faithful).ReadsPrograms where
  lines := tracing.lines
  guard_eq _ := rfl
  advance_skipped := tracing.resume

theorem allowsExhaustion (h : ¬total) :
    (tracing.judgment blind total faithful).AllowsExhaustion :=
  fun _ _ _ _ => .exhausted rfl rfl (.refl _) h

end Tracing

end LineScript
