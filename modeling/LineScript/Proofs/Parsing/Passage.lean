import LineScript.Parsing.Program

/-!
# Passing over tokens

A cursor that moves passes over tokens, and it can only move forward.  `Passes`
says which tokens lie between two cursors; whatever a parser does with the tokens
it reads is stated about them.  A token list is closed when its last token is an end
of input, and sealed when this is also the only one: both survive every move.
-/

namespace LineScript

namespace Cursor

variable {start middle reached : Cursor} {passed others : List Token}

/-- The tokens that a cursor still sees, the current one first. -/
def tokens (cursor : Cursor) : List Token :=
  cursor.current :: cursor.upcoming

theorem eq_of_tokens_eq {left right : Cursor} (h : left.tokens = right.tokens) : left = right := by
  cases left
  cases right
  simpa [tokens] using h

/-- Moving over `passed` leads from `start` to `reached`.  The current token of `reached` is
not among them. -/
def Passes (start : Cursor) (passed : List Token) (reached : Cursor) : Prop :=
  start.tokens = passed ++ reached.tokens

/-- The cursor `reached` lies at or behind `start`. -/
def Reaches (start reached : Cursor) : Prop :=
  ∃ passed, start.Passes passed reached

theorem Passes.refl (cursor : Cursor) : cursor.Passes [] cursor := rfl

theorem Passes.trans (h : start.Passes passed middle) (hothers : middle.Passes others reached) :
    start.Passes (passed ++ others) reached :=
  calc start.tokens = passed ++ middle.tokens := h
    _ = passed ++ (others ++ reached.tokens) := congrArg (passed ++ ·) hothers
    _ = (passed ++ others) ++ reached.tokens := (List.append_assoc _ _ _).symm

theorem Passes.reaches (h : start.Passes passed reached) : start.Reaches reached :=
  ⟨passed, h⟩

theorem Passes.length_eq (h : start.Passes passed reached) :
    start.upcoming.length = passed.length + reached.upcoming.length := by
  have hlength := congrArg List.length h
  simp only [tokens, List.length_cons, List.length_append] at hlength
  omega

theorem Reaches.refl (cursor : Cursor) : cursor.Reaches cursor :=
  ⟨[], Passes.refl cursor⟩

theorem Reaches.trans (h : start.Reaches middle) (hreached : middle.Reaches reached) :
    start.Reaches reached := by
  obtain ⟨passed, hpassed⟩ := h
  obtain ⟨others, hothers⟩ := hreached
  exact ⟨passed ++ others, hpassed.trans hothers⟩

theorem Reaches.length_le (h : start.Reaches reached) :
    reached.upcoming.length ≤ start.upcoming.length := by
  obtain ⟨passed, hpassed⟩ := h
  rw [hpassed.length_eq]
  exact Nat.le_add_left _ _

/-! ## Single steps -/

theorem passes_advance (h : start.upcoming ≠ []) :
    start.Passes [start.current] start.advance := by
  obtain ⟨current, upcoming⟩ := start
  cases upcoming with
  | nil => exact absurd rfl h
  | cons next rest => rfl

theorem advance_eq_self (h : start.upcoming = []) : start.advance = start := by
  simp [advance, h]

theorem reaches_advance (cursor : Cursor) : cursor.Reaches cursor.advance := by
  by_cases h : cursor.upcoming = []
  · rw [advance_eq_self h]
    exact Reaches.refl cursor
  · exact (passes_advance h).reaches

@[simp]
theorem length_upcoming_advance (cursor : Cursor) :
    cursor.advance.upcoming.length = cursor.upcoming.length - 1 := by
  obtain ⟨current, upcoming⟩ := cursor
  cases upcoming <;> simp [advance]

@[simp]
theorem current_advance (cursor : Cursor) : cursor.advance.current = cursor.peek := by
  obtain ⟨current, upcoming⟩ := cursor
  cases upcoming <;> rfl

theorem reaches_resync (depth : Nat) (current : Token) (upcoming : List Token) :
    (Cursor.mk current upcoming).Reaches (resync depth current upcoming) := by
  induction upcoming generalizing depth current with
  | nil => exact Reaches.refl _
  | cons next others ih =>
    have hstep (depth : Nat) :
        (Cursor.mk current (next :: others)).Reaches (resync depth next others) :=
      (reaches_advance ⟨current, next :: others⟩).trans (ih depth next)
    unfold resync
    split <;> first | exact Reaches.refl _ | exact hstep _

/-! ## Closed and sealed token lists -/

/-- The last token that a cursor sees is an end of input. -/
def Closed (cursor : Cursor) : Prop :=
  ∀ last ∈ cursor.tokens.getLast?, last.kind = .endOfInput

/-- Moving forward does not change the last token. -/
theorem Reaches.closed_iff (h : start.Reaches reached) : reached.Closed ↔ start.Closed := by
  obtain ⟨passed, hpassed⟩ := h
  have hlast : start.tokens.getLast? = reached.tokens.getLast? := by
    rw [hpassed, List.getLast?_append, Option.or_of_isSome (by simp [tokens])]
  rw [Closed, Closed, hlast]

theorem Reaches.closed (h : start.Reaches reached) (hclosed : start.Closed) : reached.Closed :=
  h.closed_iff.mpr hclosed

theorem Closed.upcoming_ne_nil (h : start.Closed) (hcurrent : start.current.kind ≠ .endOfInput) :
    start.upcoming ≠ [] := by
  intro hnil
  exact hcurrent (h start.current (by simp [tokens, hnil]))

theorem Closed.upcoming_ne_nil_of_peek (h : start.Closed)
    (hpeek : start.peek.kind ≠ .endOfInput) : start.upcoming ≠ [] := by
  intro hnil
  refine h.upcoming_ne_nil (fun hcurrent => hpeek ?_) hnil
  simpa [peek, hnil] using hcurrent

theorem Closed.advance (h : start.Closed) : start.advance.Closed :=
  (reaches_advance start).closed h

/-- The last token that a cursor sees is an end of input, and no other token is. -/
def Sealed (cursor : Cursor) : Prop :=
  cursor.Closed ∧ ∀ token ∈ cursor.tokens.dropLast, token.kind ≠ .endOfInput

theorem Reaches.isSealed (h : start.Reaches reached) (hsealed : start.Sealed) :
    reached.Sealed := by
  obtain ⟨passed, hpassed⟩ := h
  refine ⟨hpassed.reaches.closed hsealed.1, fun token htoken => hsealed.2 token ?_⟩
  rw [hpassed, List.dropLast_append_of_ne_nil (by simp [tokens])]
  exact List.mem_append_right passed htoken

/-- In a sealed token list the end of input is where nothing comes after. -/
theorem Sealed.current_eq_endOfInput_iff (h : start.Sealed) :
    start.current.kind = .endOfInput ↔ start.upcoming = [] := by
  constructor
  · intro hcurrent
    cases hupcoming : start.upcoming with
    | nil => rfl
    | cons next others =>
        exact absurd hcurrent (h.2 start.current (by simp [tokens, hupcoming]))
  · intro hnil
    exact h.1 start.current (by simp [tokens, hnil])

/-! ## Where parsing begins -/

theorem getLast?_closed (first : Token) (list : List Token) :
    ∀ last ∈ (first :: closed first list).getLast?, last.kind = .endOfInput := by
  induction list generalizing first with
  | nil =>
      by_cases hfirst : first.kind = .endOfInput
      · simp [closed, hfirst]
      · simp [closed, hfirst, Token.endAt]
  | cons next others ih =>
      simpa [closed] using ih next

theorem closed_ofTokens (list : List Token) : (ofTokens list).Closed := by
  cases list with
  | nil => simp [Closed, tokens, ofTokens, Token.endAt]
  | cons first others => exact getLast?_closed first others

theorem closed_append (first next : Token) (list rest : List Token) :
    closed first (list ++ next :: rest) = list ++ next :: closed next rest := by
  induction list generalizing first with
  | nil => rfl
  | cons other others ih => simp [closed, ih]

theorem tokens_ofTokens_append (list : List Token) (next : Token) (rest : List Token) :
    (ofTokens (list ++ next :: rest)).tokens = list ++ (ofTokens (next :: rest)).tokens := by
  cases list with
  | nil => rfl
  | cons first others => simp [tokens, ofTokens, closed_append]

/-- No end of input is added before the last token. -/
theorem isSealed_ofTokens {list : List Token}
    (h : ∀ token ∈ list.dropLast, token.kind ≠ .endOfInput) : (ofTokens list).Sealed := by
  refine ⟨closed_ofTokens list, ?_⟩
  cases list with
  | nil => simp [tokens, ofTokens]
  | cons first others =>
      induction others generalizing first with
      | nil =>
          by_cases hfirst : first.kind = .endOfInput
          · simp [tokens, ofTokens, closed, hfirst]
          · simp [tokens, ofTokens, closed, hfirst]
      | cons next rest ih =>
          intro token htoken
          have hsplit : token = first ∨ token ∈ (ofTokens (next :: rest)).tokens.dropLast := by
            simpa [tokens, ofTokens, closed] using htoken
          rcases hsplit with rfl | hrest
          · exact h token (by simp)
          · exact ih next (fun other hother => h other (by simp [hother])) token hrest

/-- In a list whose only end of input is its last token, nothing comes behind one that is
reached. -/
theorem Reaches.upcoming_eq_nil {list : List Token} {last : Cursor}
    (h : (ofTokens list).Reaches last)
    (hend : ∀ token ∈ list.dropLast, token.kind ≠ .endOfInput)
    (hlast : last.current.kind = .endOfInput) : last.upcoming = [] :=
  (h.isSealed (isSealed_ofTokens hend)).current_eq_endOfInput_iff.mp hlast

end Cursor

end LineScript
