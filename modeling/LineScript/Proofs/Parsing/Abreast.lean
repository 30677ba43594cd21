import LineScript.Proofs.Parsing.Nesting
import LineScript.Proofs.Parsing.Rules

/-!
# Two parsers side by side

Two parsers run in two token lists that share a stretch.  As long as they do the same, the
cursors stay side by side in the stretch, and the braces that are open around the construct
stay open.  A failure right behind a block is where this count slips: the closing brace of
the block is taken for one of those around it, so more of them stay open than the parser
reckons with.  The second parser may be cautious and give up there.
-/

namespace LineScript

namespace Border

/-- A failure does not move over the border.  The closing brace of a block right before it
is open where the parser stops. -/
def Fails (border : Border) (diagnostic : Diagnostic) (depth : Nat) (left right : Cursor) : Prop :=
  border.Before (if diagnostic.IsBehindBlock left then depth + 1 else depth) left right

/-- The cursors are behind a statement, or at the line end that follows it. -/
def Rests (border : Border) (depth : Nat) (left right : Cursor) : Prop :=
  border.Behind depth left right ∨
    left.current.kind = .newline ∧ border.Before depth left right

variable {border : Border} {depth : Nat} {left right : Cursor}

theorem Behind.fails {diagnostic : Diagnostic} (h : border.Behind depth left right)
    (hcause : diagnostic.cause ≠ .noPrefixRule .closeCurly) :
    border.Fails diagnostic depth left right := by
  unfold Fails Diagnostic.IsBehindBlock
  simpa [hcause] using h.before

theorem Before.fails (h : border.Before depth left right) :
    border.Fails ⟨.noPrefixRule left.current.kind, left.current.position⟩ depth left right := by
  have hnot : ¬Diagnostic.IsBehindBlock ⟨.noPrefixRule left.current.kind, left.current.position⟩
      left := fun hbehind => hbehind.2 (by rw [hbehind.1])
  rw [Fails, if_neg hnot]
  exact h

theorem Fails.current_eq {diagnostic : Diagnostic}
    (h : border.Fails diagnostic depth left right) : left.current = right.current :=
  Before.current_eq h

theorem Rests.before_advance (h : border.Rests depth left right)
    (hlines : border.AdmitsLines depth) :
    border.Before depth left.advance right.advance := by
  rcases h with hbehind | ⟨hline, hbefore⟩
  · exact hbehind.before_advance
  · exact hbefore.advance_of_newline hlines hline

end Border

/-- Where two parsers are, and how many braces more are open around them than they reckon with. -/
structure Pace where
  slip : Nat
  left : Cursor
  right : Cursor

/-- Both parsers are one token further. -/
def Pace.advance (pace : Pace) : Pace :=
  ⟨pace.slip, pace.left.advance, pace.right.advance⟩

instance : Located Pace where
  cursor := Pace.left
  advance := Pace.advance
  cursor_advance _ := rfl

/-- A parser does what is expected of it.  If it is strict, it does so only as long as the count of
open braces does not slip, and is exhausted otherwise. -/
structure Outcome.Abides {α : Type} (strict : Prop) (before after : Nat)
    (expected actual : Outcome α) : Prop where
  le : before ≤ after
  same : (strict → after = before) → actual = expected
  slips : strict → after ≠ before → actual.verdict = .exhausted

/-- Two parsers run side by side inside `level` pairs of braces.  The second does what the first
does, unless it is strict and the count of open braces slips. -/
inductive Parser.Abreast {α : Type} (border : Border) (strict : Prop) (level : Nat)
    (post : α → α → Pace → Prop) (first second : Parser α) (s : Pace) : Prop where
  | success {value other : α} {recorded : List Diagnostic} {t : Pace}
    (hfirst : first s.left = ⟨.success value, recorded, t.left⟩)
    (hsecond : Outcome.Abides strict s.slip t.slip ⟨.success other, recorded, t.right⟩
      (second s.right))
    (h : post value other t) : Abreast border strict level post first second s
  | failure {diagnostic : Diagnostic} {recorded : List Diagnostic} {t : Pace}
    (hfirst : first s.left = ⟨.failure diagnostic, recorded, t.left⟩)
    (hsecond : Outcome.Abides strict s.slip t.slip ⟨.failure diagnostic, recorded, t.right⟩
      (second s.right))
    (h : border.Fails diagnostic (t.slip + level) t.left t.right) :
    Abreast border strict level post first second s
  | exhausted {recorded : List Diagnostic} {t : Pace}
    (hfirst : first s.left = ⟨.exhausted, recorded, t.left⟩)
    (hsecond : Outcome.Abides strict s.slip t.slip ⟨.exhausted, recorded, t.right⟩
      (second s.right)) :
    Abreast border strict level post first second s

namespace Parser

variable {α β : Type} {parser : Parser α} {cursor reached : Cursor}

theorem verdict_bind_of_exhausted (h : (parser cursor).verdict = .exhausted)
    (next : α → Parser β) : ((parser >>= next) cursor).verdict = .exhausted := by
  cases hparser : parser cursor with
  | mk verdict recorded reached =>
      rw [hparser] at h
      obtain rfl : verdict = .exhausted := h
      rw [bind_of_exhausted hparser]

end Parser

namespace Outcome.Abides

open LineScript.Parser

variable {α β : Type} {strict : Prop} {before middle after : Nat} {parser : Parser α}
variable {cursor reached : Cursor} {recorded : List Diagnostic} {value : α}
variable {diagnostic : Diagnostic}

theorem refl (outcome : Outcome α) : Abides strict before before outcome outcome :=
  ⟨Nat.le_refl before, fun _ => rfl, fun _ hne => absurd rfl hne⟩

theorem congr {expected actual other : Outcome α} (h : Abides strict before after expected actual)
    (heq : other = actual) : Abides strict before after expected other := by
  rwa [heq]

/-- Where nothing depends on the count, it may slip. -/
theorem mono {expected actual : Outcome α} (h : Abides strict before middle expected actual)
    (hstrict : ¬strict) (hle : middle ≤ after) : Abides strict before after expected actual :=
  ⟨Nat.le_trans h.le hle, fun _ => h.same fun h => absurd h hstrict, fun h => absurd h hstrict⟩

/-- The count may slip in the first parser or in the second. -/
theorem bind (h : Abides strict before middle ⟨.success value, recorded, reached⟩ (parser cursor))
    {next : α → Parser β} {expected : Outcome β}
    (hnext : Abides strict middle after expected (next value reached)) :
    Abides strict before after { expected with recorded := recorded ++ expected.recorded }
      ((parser >>= next) cursor) := by
  have hle := h.le
  have hle' := hnext.le
  refine ⟨Nat.le_trans hle hle', fun hslip => ?_, fun hstrict hne => ?_⟩
  · have hmiddle : strict → middle = before := fun hstrict => by
      have := hslip hstrict
      omega
    have hafter : strict → after = middle := fun hstrict => by
      rw [hslip hstrict, hmiddle hstrict]
    rw [bind_of_success (h.same hmiddle), hnext.same hafter]
  · by_cases hmiddle : middle = before
    · rw [bind_of_success (h.same fun _ => hmiddle)]
      exact hnext.slips hstrict (hmiddle ▸ hne)
    · exact verdict_bind_of_exhausted (h.slips hstrict hmiddle) next

theorem bind_failure
    (h : Abides strict before after ⟨.failure diagnostic, recorded, reached⟩ (parser cursor))
    (next : α → Parser β) :
    Abides strict before after ⟨.failure diagnostic, recorded, reached⟩
      ((parser >>= next) cursor) :=
  ⟨h.le, fun hslip => bind_of_failure (h.same hslip) next,
    fun hstrict hne => verdict_bind_of_exhausted (h.slips hstrict hne) next⟩

theorem bind_exhausted
    (h : Abides strict before after ⟨.exhausted, recorded, reached⟩ (parser cursor))
    (next : α → Parser β) :
    Abides strict before after ⟨.exhausted, recorded, reached⟩ ((parser >>= next) cursor) :=
  ⟨h.le, fun hslip => bind_of_exhausted (h.same hslip) next,
    fun hstrict hne => verdict_bind_of_exhausted (h.slips hstrict hne) next⟩

/-! ## Where the count slips -/

theorem attempt {expected : Outcome α} {settled : Outcome (Except Diagnostic α)}
    (h : Abides strict before after expected (parser cursor))
    (hattempt : parser cursor = expected → parser.attempt cursor = settled) :
    Abides strict before after settled (parser.attempt cursor) :=
  ⟨h.le, fun hslip => hattempt (h.same hslip), fun hstrict hne =>
    verdict_attempt_of_exhausted (h.slips hstrict hne)⟩

/-- A cautious parser does the same, as long as it does not fail right behind a block. -/
theorem cautious {expected : Outcome α} (h : Abides strict before after expected (parser cursor))
    (hnot : ∀ diagnostic, expected.verdict = .failure diagnostic →
      ¬diagnostic.IsBehindBlock expected.cursor) :
    Abides strict before after expected (parser.cautious cursor) := by
  refine ⟨h.le, fun hslip => ?_, fun hstrict hne =>
    verdict_cautious_of_exhausted (h.slips hstrict hne)⟩
  have hsame := h.same hslip
  rw [← hsame] at hnot
  rw [cautious_eq_self hnot, hsame]

/-- Where it does, it is exhausted, and one more brace stays open. -/
theorem cautious_of_behindBlock {expected : Outcome α}
    (h : Abides strict before after ⟨.failure diagnostic, recorded, reached⟩ (parser cursor))
    (hstrict : strict) (hbehind : diagnostic.IsBehindBlock reached) :
    Abides strict before (after + 1) expected (parser.cautious cursor) := by
  have hle := h.le
  refine ⟨by omega, fun hslip => absurd (hslip hstrict) (by omega), fun _ _ => ?_⟩
  by_cases hslip : after = before
  · have hsame := h.same fun _ => hslip
    exact verdict_cautious_of_behindBlock (by rw [hsame]) (by rwa [hsame])
  · exact verdict_cautious_of_exhausted (h.slips hstrict hslip)

end Outcome.Abides

namespace Parser.Abreast

open Outcome (Abides)

variable {α β : Type} {border : Border} {strict : Prop} {level : Nat}
variable {post : α → α → Pace → Prop} {post' : β → β → Pace → Prop}
variable {first second first' second' : Parser α} {s : Pace}

theorem pure {value other : α} (h : post value other s) :
    Abreast border strict level post (Pure.pure value) (Pure.pure other) s :=
  .success rfl (.refl _) h

theorem fail {diagnostic : Diagnostic}
    (h : border.Fails diagnostic (s.slip + level) s.left s.right) :
    Abreast border strict level post (Parser.fail diagnostic) (Parser.fail diagnostic) s :=
  .failure rfl (.refl _) h

theorem bind {next next' : α → Parser β} (h : Abreast border strict level post first second s)
    (hnext : ∀ value other t, post value other t →
      Abreast border strict level post' (next value) (next' other) t) :
    Abreast border strict level post' (first >>= next) (second >>= next') s := by
  cases h with
  | success hfirst hsecond hpost =>
      have hrest := bind_of_success hfirst next
      cases hnext _ _ _ hpost with
      | success hfirst' hsecond' hpost' =>
          rw [hfirst'] at hrest
          exact .success hrest (hsecond.bind hsecond') hpost'
      | failure hfirst' hsecond' hfails =>
          rw [hfirst'] at hrest
          exact .failure hrest (hsecond.bind hsecond') hfails
      | exhausted hfirst' hsecond' =>
          rw [hfirst'] at hrest
          exact .exhausted hrest (hsecond.bind hsecond')
  | failure hfirst hsecond hfails =>
      exact .failure (bind_of_failure hfirst next) (hsecond.bind_failure next') hfails
  | exhausted hfirst hsecond =>
      exact .exhausted (bind_of_exhausted hfirst next) (hsecond.bind_exhausted next')

/-- A step that both parsers take. -/
theorem step {t : Pace} (hslip : t.slip = s.slip) (hfirst : first s.left = first' t.left)
    (hsecond : second s.right = second' t.right)
    (h : Abreast border strict level post first' second' t) :
    Abreast border strict level post first second s := by
  cases h with
  | success hfirst' hsecond' hpost =>
      exact .success (hfirst.trans hfirst') (hslip ▸ hsecond'.congr hsecond) hpost
  | failure hfirst' hsecond' hfails =>
      exact .failure (hfirst.trans hfirst') (hslip ▸ hsecond'.congr hsecond) hfails
  | exhausted hfirst' hsecond' =>
      exact .exhausted (hfirst.trans hfirst') (hslip ▸ hsecond'.congr hsecond)

/-- At least as many braces stay open. -/
theorem mono {other : α → α → Pace → Prop} (h : Abreast border strict level post first second s)
    (hother : ∀ value result t, s.slip ≤ t.slip → post value result t → other value result t) :
    Abreast border strict level other first second s := by
  cases h with
  | success hfirst hsecond hpost =>
      exact .success hfirst hsecond (hother _ _ _ hsecond.le hpost)
  | failure hfirst hsecond hfails => exact .failure hfirst hsecond hfails
  | exhausted hfirst hsecond => exact .exhausted hfirst hsecond

/-- What never fails does the same inside more braces. -/
theorem nest (hpersists : first.Persists)
    (h : Abreast border strict (level + 1) post first second s) :
    Abreast border strict level post first second s := by
  cases h with
  | success hfirst hsecond hpost => exact .success hfirst hsecond hpost
  | failure hfirst _ _ => exact absurd (by rw [hfirst]) (hpersists s.left _)
  | exhausted hfirst hsecond => exact .exhausted hfirst hsecond

theorem record {post : Unit → Unit → Pace → Prop} {diagnostic : Diagnostic} (h : post () () s) :
    Abreast border strict level post (Parser.record diagnostic) (Parser.record diagnostic) s :=
  .success rfl (.refl _) h

theorem recover {diagnostic : Diagnostic} (h : border.Before (s.slip + level) s.left s.right) :
    Abreast border strict level
      (fun _ _ t => border.Before (t.slip + level) t.left t.right ∧
        Cursor.StopsAt 0 t.left.current)
      (Parser.recover diagnostic) (Parser.recover diagnostic) s := by
  let t : Pace := ⟨s.slip, Cursor.resync 0 s.left.current s.left.upcoming,
    Cursor.resync 0 s.right.current s.right.upcoming⟩
  have hsecond : Abides strict s.slip t.slip ⟨.success (), [diagnostic], t.right⟩
      (Parser.recover diagnostic s.right) := .refl _
  exact .success rfl hsecond h.recover

/-- A statement has succeeded, or it has failed inside as many braces as are counted. -/
def Settles (border : Border) (level : Nat) (post : α → α → Pace → Prop)
    (result result' : Except Diagnostic α) (t : Pace) : Prop :=
  (∃ value other, result = .ok value ∧ result' = .ok other ∧ post value other t) ∨
    ∃ diagnostic, result = .error diagnostic ∧ result' = .error diagnostic ∧
      border.Before (t.slip + level) t.left t.right

/-- A failure right behind a block leaves one brace more open, and no other ending does.  A slip
exhausts the second parser if it is cautious. -/
theorem attempt (cautious : Bool)
    (h : Abreast border cautious level post first second s) :
    Abreast border cautious level (Settles border level post) first.attempt
      (if cautious then second.cautious else second).attempt s := by
  have hguard {after : Nat} {expected : Outcome α}
      (hsecond : Abides cautious s.slip after expected (second s.right))
      (hnot : ∀ diagnostic, expected.verdict = .failure diagnostic →
        ¬diagnostic.IsBehindBlock expected.cursor) :
      Abides cautious s.slip after expected
        ((if cautious then second.cautious else second) s.right) := by
    cases cautious with
    | true => exact hsecond.cautious hnot
    | false => exact hsecond
  cases h with
  | @success value other recorded t hfirst hsecond hpost =>
      exact .success (attempt_of_success hfirst)
        ((hguard hsecond (by simp)).attempt attempt_of_success) (.inl ⟨_, _, rfl, rfl, hpost⟩)
  | @failure diagnostic recorded t hfirst hsecond hfails =>
      by_cases hbehind : diagnostic.IsBehindBlock t.left
      · have hbefore := hfails
        rw [Border.Fails, if_pos hbehind, Nat.add_right_comm] at hbefore
        let slipped : Pace := ⟨t.slip + 1, t.left, t.right⟩
        have hslipped : Abides cautious s.slip slipped.slip ⟨.failure diagnostic, recorded, t.right⟩
            ((if cautious then second.cautious else second) s.right) := by
          cases cautious with
          | true =>
              apply hsecond.cautious_of_behindBlock rfl
              rwa [Diagnostic.IsBehindBlock, ← hfails.current_eq]
          | false => exact hsecond.mono (by simp) (Nat.le_succ t.slip)
        have hattempt : first.attempt s.left =
            ⟨.success (.error diagnostic), recorded, slipped.left⟩ := attempt_of_failure hfirst
        exact .success hattempt (hslipped.attempt attempt_of_failure) (.inr ⟨_, rfl, rfl, hbefore⟩)
      · rw [Border.Fails, if_neg hbehind] at hfails
        have hnot : ¬diagnostic.IsBehindBlock t.right := by
          rwa [Diagnostic.IsBehindBlock, ← hfails.current_eq]
        exact .success (attempt_of_failure hfirst)
          ((hguard hsecond (by simpa using hnot)).attempt attempt_of_failure)
          (.inr ⟨_, rfl, rfl, hfails⟩)
  | exhausted hfirst hsecond =>
      exact .exhausted (attempt_of_exhausted hfirst)
        ((hguard hsecond (by simp)).attempt attempt_of_exhausted)

end Parser.Abreast

/-- Where two cursors stand side by side, depending on what has been done with the current
token. -/
def Border.PaceAt (border : Border) (phase : Phase) (level : Nat) (s : Pace) : Prop :=
  match phase with
  | .here | .broken _ => border.Before (s.slip + level) s.left s.right
  | .past => border.Behind (s.slip + level) s.left s.right
  | .rest => border.Rests (s.slip + level) s.left s.right
  | .stops | .closes => border.Before (s.slip + level) s.left s.right ∧
      (s.left.current.kind = .closeCurly ∨ s.left.current.kind = .endOfInput)
  | .skipped => border.Before (s.slip + level) s.left s.right ∧ Cursor.StopsAt 0 s.left.current

theorem Border.PaceAt.current_eq {border : Border} {phase : Phase} {level : Nat} {s : Pace}
    (h : border.PaceAt phase level s) : s.right.current = s.left.current := by
  cases phase with
  | here => exact (Before.current_eq h).symm
  | past => exact (Behind.current_eq h).symm
  | rest =>
      rcases h with hbehind | ⟨-, hbefore⟩
      · exact hbehind.current_eq.symm
      · exact hbefore.current_eq.symm
  | stops => exact h.1.current_eq.symm
  | closes => exact h.1.current_eq.symm
  | broken => exact (Before.current_eq h).symm
  | skipped => exact h.1.current_eq.symm

/-- Where skipping has ended and reading goes on, a line has ended. -/
theorem Border.PaceAt.advance_skipped {border : Border} {level : Nat} {s : Pace}
    (h : border.PaceAt .skipped level s) (hlines : border.AdmitsLines (s.slip + level))
    (hclose : s.left.current.kind ≠ .closeCurly) (hend : s.left.current.kind ≠ .endOfInput) :
    border.PaceAt .here level s.advance := by
  obtain ⟨hbefore, heof | ⟨-, hline | hcloses⟩⟩ := h
  · exact absurd heof hend
  · exact hbefore.advance_of_newline hlines hline
  · exact absurd hcloses hclose

open Border in
/-- Parsers run side by side, the second of them perhaps cautiously. -/
def keepingPace (border : Border) (cautious : Bool) : Judgment Pace where
  other := Pace.right
  blind := false
  faithful := False
  guard parser := if cautious then parser.cautious else parser
  Holds level := Parser.Abreast border cautious level
  At phase _ level _ s := border.PaceAt phase level s
  Lines level s := border.AdmitsLines (s.slip + level)
  other_advance _ := rfl
  current_eq h := h.current_eq
  peek_eq h := (Behind.peek_eq h).symm
  mono h _ := h
  keep h hplain := Before.behind h hplain
  drop h hkind := Before.behind h (TokenKind.isPlain_of_isSeparator hkind)
  enter h hopen := ⟨Before.advance_of_openCurly h hopen, admitsLines_succ⟩
  leave h := h.2.elim (Before.behind_of_closeCurly h.1) (Before.behind_of_endOfInput h.1)
  rest_past h := .inl h
  rest_newline h hline := .inr ⟨hline, h⟩
  advance_past h := Behind.before_advance h
  advance_peek h _ := Behind.before_advance h
  advance_rest h hlines := Rests.before_advance h hlines
  advance_skipped h hlines hclose hend := h.advance_skipped hlines hclose hend
  stops_here h hstop := ⟨h, hstop⟩
  stops_skipped h hstop := ⟨h.1, hstop⟩
  closes_stops h _ := h
  lines_advance h := h
  congr := .step rfl
  move := .step rfl
  pure := .pure
  bind := .bind
  frame hlines h := h.mono fun _ _ _ hle hpost =>
    ⟨hpost, hlines.mono (Nat.add_le_add_right hle _)⟩
  nest := .nest
  fail h := .fail (Before.fails h)
  missing _ h := .fail (Behind.fails h (by simp))
  note _ h := .record ⟨rfl, h⟩
  unclosed _ h _ := .record h
  recover h := .recover h
  attempt _ _ hparser := hparser.attempt

theorem keepingPace_allowsExhaustion (border : Border) (cautious : Bool) :
    (keepingPace border cautious).AllowsExhaustion :=
  fun _ _ _ _ => .exhausted rfl (.refl _)

namespace Grammar

/-- The parsers of the standard grammar do the same in two lists that share a stretch. -/
theorem onParts_keepingPace (border : Border) (depth calls : Nat) :
    (keepingPace border false).OnParts calls (standard.parts depth) (standard.parts depth) :=
  (keepingPace_allowsExhaustion border false).onParts rfl parts_succ depth calls

/-- The cautious parsers do the same as the others as long as the count does not slip. -/
theorem onParts_keepingPace_cautious (border : Border) (depth calls : Nat) :
    (keepingPace border true).OnParts calls (standard.parts depth) (standard.cautiousParts depth) :=
  (keepingPace_allowsExhaustion border true).onParts rfl cautiousParts_succ depth calls

end Grammar

end LineScript
