import LineScript.Proofs.Grammar
import LineScript.Proofs.Parsing.Passage

/-!
# Nesting of braces

The braces of a token list are counted from left to right.  Two token lists share a
stretch when they have the same tokens up to a border, which lies where as many braces
are closed as were open at the start; behind the border the lists may differ.  Two
cursors in such lists move side by side as long as neither moves over the border.
-/

namespace LineScript

/-- How many braces are open behind a token, when `depth` are open before it: none if the
token closes a brace that is not open. -/
def Token.depthAfter (depth : Nat) (token : Token) : Option Nat :=
  match token.kind, depth with
  | .openCurly, depth => some (depth + 1)
  | .closeCurly, 0 => none
  | .closeCurly, depth + 1 => some depth
  | _, depth => some depth

namespace Token

variable {token : Token} {depth inner : Nat}

theorem depthAfter_of_openCurly (h : token.kind = .openCurly) :
    token.depthAfter depth = some (depth + 1) := by
  simp [depthAfter, h]

theorem depthAfter_of_closeCurly (h : token.kind = .closeCurly) :
    token.depthAfter (depth + 1) = some depth := by
  simp [depthAfter, h]

theorem depthAfter_eq_none_iff :
    token.depthAfter depth = none ↔ token.kind = .closeCurly ∧ depth = 0 := by
  unfold depthAfter
  split <;> simp_all

theorem depthAfter_of_other (hopen : token.kind ≠ .openCurly) (hclose : token.kind ≠ .closeCurly) :
    token.depthAfter depth = some depth := by
  unfold depthAfter
  split <;> simp_all

/-- More open braces around a token change nothing. -/
theorem depthAfter_add (h : token.depthAfter depth = some inner) (outer : Nat) :
    token.depthAfter (outer + depth) = some (outer + inner) := by
  by_cases hopen : token.kind = .openCurly
  · rw [depthAfter_of_openCurly hopen, Option.some_inj] at h ⊢
    omega
  by_cases hclose : token.kind = .closeCurly
  · cases depth with
    | zero =>
        rw [depthAfter_eq_none_iff.mpr ⟨hclose, rfl⟩] at h
        cases h
    | succ depth =>
        rw [depthAfter_of_closeCurly hclose, Option.some_inj] at h
        rw [← Nat.add_assoc, depthAfter_of_closeCurly hclose, h]
  · rw [depthAfter_of_other hopen hclose, Option.some_inj] at h ⊢
    rw [h]

end Token

namespace Cursor

variable {skipped inner : Nat} {current : Token}

/-- Where skipping ends when `skipped` braces have been opened on the way. -/
def StopsAt (skipped : Nat) (current : Token) : Prop :=
  current.kind = .endOfInput ∨
    skipped = 0 ∧ (current.kind = .newline ∨ current.kind = .closeCurly)

instance : Decidable (StopsAt skipped current) :=
  inferInstanceAs (Decidable (_ ∨ _))

theorem StopsAt.zero (h : StopsAt skipped current) : StopsAt 0 current :=
  h.imp_right fun hline => ⟨rfl, hline.2⟩

theorem resync_of_stopsAt (h : StopsAt skipped current) (upcoming : List Token) :
    resync skipped current upcoming = ⟨current, upcoming⟩ := by
  cases upcoming with
  | nil => rfl
  | cons next others => rcases h with hend | ⟨rfl, hline | hclose⟩ <;> simp [resync, *]

theorem resync_of_not_stopsAt (h : ¬StopsAt skipped current)
    (hdepth : current.depthAfter skipped = some inner) (next : Token) (others : List Token) :
    resync skipped current (next :: others) = resync inner next others := by
  cases hkind : current.kind <;> cases skipped <;>
    simp_all [StopsAt, Token.depthAfter, resync]
  -- A line end inside braces that were opened on the way.
  subst hdepth
  rfl

theorem exists_depthAfter_of_not_stopsAt (h : ¬StopsAt skipped current) :
    ∃ inner, current.depthAfter skipped = some inner := by
  unfold StopsAt at h
  unfold Token.depthAfter
  split <;> simp_all

end Cursor

/-- The token at which a shared stretch ends, and what either list has behind it. -/
structure Border where
  token : Token
  left : List Token
  right : List Token
  kind_eq : token.kind = .newline ∨ token.kind = .closeCurly ∨ token.kind = .endOfInput
  eq_nil : token.kind = .endOfInput → left = [] ∧ right = []

namespace Border

/-- The lists have the same tokens up to the border and no end of input among them.  The
border lies where `depth` braces more are closed than opened, or is the end of input. -/
inductive Shared (border : Border) : Nat → List Token → List Token → Prop where
  | border {depth : Nat} (h : border.token.kind = .endOfInput ∨ depth = 0) :
    Shared border depth (border.token :: border.left) (border.token :: border.right)
  | cons {token : Token} {depth inner : Nat} {left right : List Token}
    (h : token.kind ≠ .endOfInput) (hdepth : token.depthAfter depth = some inner)
    (hrest : Shared border inner left right) :
    Shared border depth (token :: left) (token :: right)

/-- What two cursors see from their current tokens on is shared. -/
def Before (border : Border) (depth : Nat) (left right : Cursor) : Prop :=
  border.Shared depth left.tokens right.tokens

/-- Two cursors have the same current token, which neither opens a brace nor ends a line,
and what they see behind it is shared. -/
structure Behind (border : Border) (depth : Nat) (left right : Cursor) : Prop where
  current_eq : left.current = right.current
  kind_ne_openCurly : left.current.kind ≠ .openCurly
  kind_ne_newline : left.current.kind ≠ .newline
  shared : left.current.kind ≠ .endOfInput ∧ border.Shared depth left.upcoming right.upcoming ∨
    left.current.kind = .endOfInput ∧ border.Before depth left right

/-- A line end at this depth is not the border. -/
def AdmitsLines (border : Border) (depth : Nat) : Prop :=
  border.token.kind = .newline → 0 < depth

variable {border : Border} {depth deeper : Nat} {left right : Cursor}

theorem AdmitsLines.mono (h : border.AdmitsLines depth) (hle : depth ≤ deeper) :
    border.AdmitsLines deeper := fun hborder => Nat.lt_of_lt_of_le (h hborder) hle

theorem admitsLines_succ : border.AdmitsLines (depth + 1) := fun _ => Nat.succ_pos depth

theorem Shared.exists_append {left right : List Token} (h : border.Shared depth left right) :
    ∃ ahead, left = ahead ++ border.token :: border.left ∧
      right = ahead ++ border.token :: border.right := by
  induction h with
  | border => exact ⟨[], rfl, rfl⟩
  | @cons token depth inner left right _ _ _ ih =>
      obtain ⟨ahead, rfl, rfl⟩ := ih
      exact ⟨token :: ahead, rfl, rfl⟩

/-! ## From the current token on -/

theorem Before.current_eq (h : border.Before depth left right) :
    left.current = right.current := by
  obtain ⟨current, upcoming⟩ := left
  obtain ⟨current', upcoming'⟩ := right
  cases h <;> rfl

/-- Two cursors stand at the border, or what they see behind their current tokens is shared
at the depth behind these. -/
theorem Before.cases (h : border.Before depth left right) :
    ((border.token.kind = .endOfInput ∨ depth = 0) ∧
        left = ⟨border.token, border.left⟩ ∧ right = ⟨border.token, border.right⟩) ∨
      ∃ inner, left.current.kind ≠ .endOfInput ∧ left.current.depthAfter depth = some inner ∧
        border.Shared inner left.upcoming right.upcoming := by
  obtain ⟨current, upcoming⟩ := left
  obtain ⟨current', upcoming'⟩ := right
  cases h with
  | border hborder => exact .inl ⟨hborder, rfl, rfl⟩
  | cons hend hdepth hrest => exact .inr ⟨_, hend, hdepth, hrest⟩

theorem Shared.before_advance (h : border.Shared depth left.upcoming right.upcoming) :
    border.Before depth left.advance right.advance := by
  obtain ⟨current, upcoming⟩ := left
  obtain ⟨current', upcoming'⟩ := right
  cases upcoming with
  | nil => cases h
  | cons token others =>
      cases upcoming' with
      | nil => cases h
      | cons token' others' => exact h

/-- At the end of input the depth does not matter. -/
theorem Before.of_endOfInput (h : border.Before depth left right)
    (hend : left.current.kind = .endOfInput) : border.Before deeper left right := by
  obtain ⟨_, rfl, rfl⟩ | ⟨_, hne, _⟩ := h.cases
  · exact .border (.inl hend)
  · exact absurd hend hne

theorem Before.advance_eq_self (h : border.Before depth left right)
    (hend : left.current.kind = .endOfInput) : left.advance = left ∧ right.advance = right := by
  obtain ⟨_, rfl, rfl⟩ | ⟨_, hne, _⟩ := h.cases
  · obtain ⟨hleft, hright⟩ := border.eq_nil hend
    exact ⟨Cursor.advance_eq_self hleft, Cursor.advance_eq_self hright⟩
  · exact absurd hend hne

theorem Before.behind_of_endOfInput (h : border.Before depth left right)
    (hend : left.current.kind = .endOfInput) : border.Behind deeper left right where
  current_eq := h.current_eq
  kind_ne_openCurly := by simp [hend]
  kind_ne_newline := by simp [hend]
  shared := .inr ⟨hend, h.of_endOfInput hend⟩

theorem Before.behind (h : border.Before depth left right)
    (hplain : left.current.kind.isPlain) : border.Behind depth left right := by
  obtain ⟨hopen, hclose, hline, hend⟩ := TokenKind.isPlain_iff.mp hplain
  obtain ⟨_, rfl, rfl⟩ | ⟨inner, hend, hdepth, hrest⟩ := h.cases
  · rcases border.kind_eq with hkind | hkind | hkind
    · exact absurd hkind hline
    · exact absurd hkind hclose
    · exact absurd hkind hend
  · rw [Token.depthAfter_of_other hopen hclose, Option.some_inj] at hdepth
    subst hdepth
    exact ⟨h.current_eq, hopen, hline, .inl ⟨hend, hrest⟩⟩

theorem Before.advance_of_openCurly (h : border.Before depth left right)
    (hopen : left.current.kind = .openCurly) :
    border.Before (depth + 1) left.advance right.advance := by
  obtain ⟨_, rfl, rfl⟩ | ⟨inner, _, hdepth, hrest⟩ := h.cases
  · rcases border.kind_eq with hkind | hkind | hkind <;> simp [hkind] at hopen
  · rw [Token.depthAfter_of_openCurly hopen, Option.some_inj] at hdepth
    subst hdepth
    exact hrest.before_advance

/-- Inside braces a closing brace that is current is not the border. -/
theorem Before.behind_of_closeCurly (h : border.Before (depth + 1) left right)
    (hclose : left.current.kind = .closeCurly) : border.Behind depth left right := by
  obtain ⟨hborder, rfl, rfl⟩ | ⟨inner, hend, hdepth, hrest⟩ := h.cases
  · rcases hborder with hend | hzero
    · exact absurd (hend.symm.trans hclose) (by decide)
    · exact absurd hzero (Nat.succ_ne_zero depth)
  · rw [Token.depthAfter_of_closeCurly hclose, Option.some_inj] at hdepth
    subst hdepth
    exact ⟨h.current_eq, by simp [hclose], by simp [hclose], .inl ⟨hend, hrest⟩⟩

theorem Before.advance_of_newline (h : border.Before depth left right)
    (hlines : border.AdmitsLines depth) (hline : left.current.kind = .newline) :
    border.Before depth left.advance right.advance := by
  obtain ⟨hborder, rfl, rfl⟩ | ⟨inner, _, hdepth, hrest⟩ := h.cases
  · have hpos := hlines hline
    rcases hborder with hend | hzero
    · exact absurd (hend.symm.trans hline) (by decide)
    · omega
  · rw [Token.depthAfter_of_other (by simp [hline]) (by simp [hline]), Option.some_inj] at hdepth
    subst hdepth
    exact hrest.before_advance

/-! ## Behind the current token -/

theorem Behind.before_advance (h : border.Behind depth left right) :
    border.Before depth left.advance right.advance := by
  rcases h.shared with ⟨_, hrest⟩ | ⟨hend, hbefore⟩
  · exact hrest.before_advance
  · obtain ⟨hleft, hright⟩ := hbefore.advance_eq_self hend
    rwa [hleft, hright]

theorem Behind.peek_eq (h : border.Behind depth left right) : left.peek = right.peek := by
  simpa using h.before_advance.current_eq

/-- Two cursors that stay on the current token are before it; a closing brace is open there. -/
theorem Behind.before (h : border.Behind depth left right) :
    border.Before (if left.current.kind = .closeCurly then depth + 1 else depth) left right := by
  obtain ⟨hcurrent, hopen, _, hshared⟩ := h
  rcases hshared with ⟨hend, hrest⟩ | ⟨hend, hbefore⟩
  · have hdepth : left.current.depthAfter
        (if left.current.kind = .closeCurly then depth + 1 else depth) = some depth := by
      by_cases hclose : left.current.kind = .closeCurly
      · rw [if_pos hclose, Token.depthAfter_of_closeCurly hclose]
      · rw [if_neg hclose, Token.depthAfter_of_other hopen hclose]
    unfold Before Cursor.tokens
    rw [← hcurrent]
    exact .cons hend hdepth hrest
  · rw [if_neg (by simp [hend])]
    exact hbefore

/-! ## Skipping a broken statement -/

theorem Before.of_stopsAt {skipped : Nat} (h : border.Before (depth + skipped) left right)
    (hstop : Cursor.StopsAt skipped left.current) : border.Before depth left right := by
  rcases hstop with hend | ⟨rfl, _⟩
  · exact h.of_endOfInput hend
  · exact h

/-- Where skipping goes on, no cursor is at the border: no brace that was opened on the way is
open there. -/
theorem Before.shared_of_not_stopsAt {skipped inner : Nat}
    (h : border.Before (depth + skipped) left right)
    (hstop : ¬Cursor.StopsAt skipped left.current)
    (hinner : left.current.depthAfter skipped = some inner) :
    border.Shared (depth + inner) left.upcoming right.upcoming := by
  obtain ⟨hborder, rfl, rfl⟩ | ⟨behind, _, hdepth, hrest⟩ := h.cases
  · refine absurd ?_ hstop
    rcases hborder with hend | hzero
    · exact .inl hend
    · rcases border.kind_eq with hline | hclose | hend
      · exact .inr ⟨by omega, .inl hline⟩
      · exact .inr ⟨by omega, .inr hclose⟩
      · exact .inl hend
  · rw [Token.depthAfter_add hinner depth, Option.some_inj] at hdepth
    rwa [hdepth]

/-- Skipping a broken statement does not move over the border, at whatever depth the statement
stands. -/
theorem Before.resync {skipped : Nat} {current : Token} {upcoming : List Token}
    (h : border.Before (depth + skipped) ⟨current, upcoming⟩ right) :
    border.Before depth (Cursor.resync skipped current upcoming)
        (Cursor.resync skipped right.current right.upcoming) ∧
      Cursor.StopsAt 0 (Cursor.resync skipped current upcoming).current := by
  obtain ⟨current', upcoming'⟩ := right
  obtain rfl : current = current' := h.current_eq
  induction upcoming generalizing skipped current upcoming' with
  | nil =>
      have hstop : Cursor.StopsAt skipped current := by
        refine Decidable.of_not_not fun hstop => ?_
        obtain ⟨inner, hinner⟩ := Cursor.exists_depthAfter_of_not_stopsAt hstop
        cases h.shared_of_not_stopsAt hstop hinner
      rw [Cursor.resync_of_stopsAt hstop, Cursor.resync_of_stopsAt hstop]
      exact ⟨h.of_stopsAt hstop, hstop.zero⟩
  | cons next others ih =>
      by_cases hstop : Cursor.StopsAt skipped current
      · rw [Cursor.resync_of_stopsAt hstop, Cursor.resync_of_stopsAt hstop]
        exact ⟨h.of_stopsAt hstop, hstop.zero⟩
      · obtain ⟨inner, hinner⟩ := Cursor.exists_depthAfter_of_not_stopsAt hstop
        have hrest := h.shared_of_not_stopsAt hstop hinner
        cases upcoming' with
        | nil => cases hrest
        | cons next' others' =>
            rw [Cursor.resync_of_not_stopsAt hstop hinner,
              Cursor.resync_of_not_stopsAt hstop hinner]
            have hnext : border.Before (depth + inner) ⟨next, others⟩ ⟨next', others'⟩ := hrest
            obtain rfl : next = next' := hnext.current_eq
            exact ih others' hnext

/-- Skipping begins with no brace opened on the way. -/
theorem Before.recover (h : border.Before depth left right) :
    border.Before depth (Cursor.resync 0 left.current left.upcoming)
        (Cursor.resync 0 right.current right.upcoming) ∧
      Cursor.StopsAt 0 (Cursor.resync 0 left.current left.upcoming).current := by
  have hbefore : border.Before (depth + 0) ⟨left.current, left.upcoming⟩ right := h
  exact hbefore.resync

end Border

end LineScript
