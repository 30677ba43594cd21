import LineScript.Proofs.Parsing.Nesting
import LineScript.Proofs.Parsing.Program

/-!
# Parsing comes to an end

Whatever the tokens are, every parser of the standard grammar comes to an end, and the
room that its recursion needs is bounded by the number of tokens.  A cursor is an index
into the closed token list that is never out of range, and skipping a broken statement
never closes a brace that it has not opened.
-/

namespace LineScript

/-! ## Cursors as indices -/

namespace Cursor

variable {tokens : List Token} {index : Nat}

/-- The cursor whose current token is the one with this index. -/
def atIndex (tokens : List Token) (index : Nat) (h : index < tokens.length) : Cursor :=
  ⟨tokens[index], tokens.drop (index + 1)⟩

/-- The index behind `index`, or the last one. -/
def nextIndex (tokens : List Token) (index : Nat) : Nat :=
  min (index + 1) (tokens.length - 1)

theorem nextIndex_lt (h : index < tokens.length) : nextIndex tokens index < tokens.length := by
  unfold nextIndex
  omega

theorem nextIndex_eq (h : index + 1 < tokens.length) : nextIndex tokens index = index + 1 := by
  unfold nextIndex
  omega

theorem tokens_atIndex (h : index < tokens.length) :
    (atIndex tokens index h).tokens = tokens.drop index :=
  (List.drop_eq_getElem_cons h).symm

/-- A cursor that sees the tokens from an index on is at this index. -/
theorem eq_atIndex {cursor : Cursor} (h : index < tokens.length)
    (heq : cursor.tokens = tokens.drop index) : cursor = atIndex tokens index h :=
  eq_of_tokens_eq (heq.trans (tokens_atIndex h).symm)

theorem advance_atIndex (h : index < tokens.length) :
    (atIndex tokens index h).advance =
      atIndex tokens (nextIndex tokens index) (nextIndex_lt h) := by
  by_cases hnext : index + 1 < tokens.length
  · apply eq_atIndex
    rw [nextIndex_eq hnext, atIndex, advance, List.drop_eq_getElem_cons hnext]
    rfl
  · have hlast : tokens.drop (index + 1) = [] := List.drop_eq_nil_of_le (Nat.le_of_not_lt hnext)
    have hsame : nextIndex tokens index = index := by
      unfold nextIndex
      omega
    apply eq_atIndex
    rw [advance_eq_self hlast, hsame, tokens_atIndex]

theorem getElem?_nextIndex (h : index < tokens.length) :
    tokens[nextIndex tokens index]? = some (atIndex tokens index h).peek := by
  rw [← current_advance, advance_atIndex, List.getElem?_eq_getElem (nextIndex_lt h)]
  rfl

/-- What a cursor passes over leads to the index behind it. -/
theorem Passes.exists_eq_atIndex {h : index < tokens.length} {passed : List Token}
    {reached : Cursor} (hpassed : (atIndex tokens index h).Passes passed reached) :
    ∃ hlast : index + passed.length < tokens.length,
      reached = atIndex tokens (index + passed.length) hlast := by
  rw [Passes, tokens_atIndex] at hpassed
  have hrest : reached.tokens = tokens.drop (index + passed.length) := by
    rw [← List.drop_drop, hpassed, List.drop_left]
  have hlast : index + passed.length < tokens.length := by
    have hlength := congrArg List.length hrest
    simp only [Cursor.tokens, List.length_cons, List.length_drop] at hlength
    omega
  exact ⟨hlast, eq_atIndex hlast hrest⟩

/-- Moving forward from an index leads to a later one or to the same. -/
theorem Reaches.exists_atIndex {h : index < tokens.length} {reached : Cursor}
    (hreached : (atIndex tokens index h).Reaches reached) :
    ∃ (last : Nat) (hlast : last < tokens.length), index ≤ last ∧
      reached = atIndex tokens last hlast := by
  obtain ⟨passed, hpassed⟩ := hreached
  obtain ⟨hlast, heq⟩ := hpassed.exists_eq_atIndex
  exact ⟨index + passed.length, hlast, Nat.le_add_right _ _, heq⟩

/-- Looks from `index` on for where parsing can go on after a broken statement, by indices into
`tokens` and with a count of the braces opened on the way.  There is no result if an index is
out of range, if a brace is closed when none is open, or if the steps do not suffice. -/
def resyncIndex? (tokens : List Token) : (steps depth index : Nat) → Option Nat
  | 0, _, _ => none
  | steps + 1, depth, index => do
    let current ← tokens[index]?
    if StopsAt depth current then return index
    else
      let inner ← current.depthAfter depth
      resyncIndex? tokens steps inner (nextIndex tokens index)

/-- In a closed token list the search by indices has a result. -/
theorem exists_resyncIndex? (hclosed : ∀ last ∈ tokens.getLast?, last.kind = .endOfInput)
    {steps : Nat} (depth : Nat) (h : index < tokens.length)
    (hsteps : tokens.length ≤ index + steps) :
    ∃ (last : Nat) (hlast : last < tokens.length),
      resyncIndex? tokens steps depth index = some last ∧
        resync depth tokens[index] (tokens.drop (index + 1)) = atIndex tokens last hlast := by
  induction steps generalizing depth index with
  | zero => omega
  | succ steps ih =>
      by_cases hstops : StopsAt depth tokens[index]
      · refine ⟨index, h, ?_, resync_of_stopsAt hstops _⟩
        simp [resyncIndex?, h, hstops]
      · obtain ⟨inner, hinner⟩ := exists_depthAfter_of_not_stopsAt hstops
        have hnext : index + 1 < tokens.length := by
          apply Nat.lt_of_not_le
          intro hlast
          have hindex : tokens.length - 1 = index := by omega
          apply hstops (.inl (hclosed _ ?_))
          rw [List.getLast?_eq_getElem?, hindex, List.getElem?_eq_getElem h, Option.mem_some]
        obtain ⟨last, hlast, hresult, hresync⟩ := ih inner hnext (by omega)
        refine ⟨last, hlast, ?_, ?_⟩
        · simpa [resyncIndex?, h, hstops, hinner, nextIndex_eq hnext] using hresult
        · rw [List.drop_eq_getElem_cons hnext, resync_of_not_stopsAt hstops hinner, hresync]

theorem length_upcoming_ofTokens_le (list : List Token) :
    (ofTokens list).upcoming.length ≤ list.length := by
  have hclosed (last : Token) (others : List Token) :
      (closed last others).length ≤ others.length + 1 := by
    induction others generalizing last with
    | nil =>
        unfold closed
        split <;> simp
    | cons next others ih => simpa [closed] using ih next
  cases list with
  | nil => simp [ofTokens]
  | cons first others => exact hclosed first others

/-- Room for every parser, computed from the number of tokens. -/
theorem within_ofTokens (list : List Token) : (ofTokens list).Within (4 * list.length + 3) :=
  ⟨closed_ofTokens list, by have := length_upcoming_ofTokens_le list; omega⟩

theorem within_atIndex {list : List Token} (h : index < (ofTokens list).tokens.length) :
    (atIndex (ofTokens list).tokens index h).Within (4 * list.length + 3) := by
  apply (within_ofTokens list).of_reaches
  exact ⟨(ofTokens list).tokens.take index, by
    rw [Passes, tokens_atIndex, List.take_append_drop]⟩

end Cursor

/-! ## Parsers that end -/

/-- Wherever in `tokens` it starts, a parser comes to an end within `tokens`, and to the same end
with every bound on its recursion from `room` on. -/
def Parser.EndsWithin {α : Type} (tokens : List Token) (room : Nat)
    (parser : Nat → Parser α) : Prop :=
  ∀ (index : Nat) (h : index < tokens.length), ∃ outcome : Outcome α,
    outcome.verdict ≠ .exhausted ∧
    (∃ (last : Nat) (hlast : last < tokens.length), index ≤ last ∧
      outcome.cursor = .atIndex tokens last hlast) ∧
    ∀ depth, room ≤ depth → parser depth (.atIndex tokens index h) = outcome

theorem Parser.EndsWithin.of_agree {α : Type} {tokens : List Token} {room : Nat}
    {parser : Nat → Parser α}
    (h : ∀ index (hindex : index < tokens.length) more, room ≤ more →
      (parser room).Agree (parser more) (.atIndex tokens index hindex)) :
    EndsWithin tokens room parser := by
  intro index hindex
  have hself := h index hindex room (Nat.le_refl room)
  exact ⟨_, hself.verdict_ne, hself.reaches.exists_atIndex,
    fun more hmore => (h index hindex more hmore).outcome_eq.symm⟩

/-- Every parser of a grammar that can run on without end if it is wrong ends on `tokens`, with
`room` for its recursion. -/
structure Grammar.EndsOn (grammar : Grammar) (tokens : List Token) (room : Nat) : Prop where
  program : Parser.EndsWithin tokens room fun depth => (grammar.parts depth).program
  statement : Parser.EndsWithin tokens room fun depth =>
    Parser.statement grammar (grammar.parts depth)
  block : Parser.EndsWithin tokens room fun depth => Parser.block (grammar.parts depth)
  parameterList : Parser.EndsWithin tokens room fun depth =>
    Parser.parameterList (grammar.parts depth)
  expression : ∀ minimum, Parser.EndsWithin tokens room fun depth =>
    (grammar.parts depth).expression minimum
  call : ∀ callee, Parser.EndsWithin tokens room fun depth =>
    InfixRule.call.parser grammar (grammar.parts depth) callee
  recover : ∀ (diagnostic : Diagnostic) (index : Nat) (h : index < tokens.length),
    ∃ (last : Nat) (hlast : last < tokens.length),
      Cursor.resyncIndex? tokens tokens.length 0 index = some last ∧
        Parser.recover diagnostic (.atIndex tokens index h) =
          ⟨.success (), [diagnostic], .atIndex tokens last hlast⟩

theorem Grammar.standard_endsOn (list : List Token) :
    standard.EndsOn (Cursor.ofTokens list).tokens (4 * list.length + 3) where
  program := .of_agree fun _ _ _ hmore =>
    program_agree (Nat.le_refl _) hmore (Cursor.within_atIndex _)
  statement := .of_agree fun _ _ _ hmore =>
    statement_agree (Nat.le_refl _) hmore (Cursor.within_atIndex _)
  block := .of_agree fun _ _ _ hmore =>
    block_agree (Nat.le_refl _) hmore (Cursor.within_atIndex _)
  parameterList := .of_agree fun _ _ _ hmore =>
    parameterList_agree (Nat.le_refl _) hmore (Cursor.within_atIndex _)
  expression minimum := .of_agree fun _ _ _ hmore =>
    expression_agree (Nat.le_refl _) hmore (Cursor.within_atIndex _) minimum
  call callee := .of_agree fun _ _ _ hmore =>
    call_agree (Nat.le_refl _) hmore (Cursor.within_atIndex _) callee
  recover diagnostic index h := by
    obtain ⟨last, hlast, hresult, hresync⟩ :=
      Cursor.exists_resyncIndex? (Cursor.closed_ofTokens list) 0 h (Nat.le_add_left _ index)
    refine ⟨last, hlast, hresult, ?_⟩
    rw [← hresync]
    rfl

/-- Every token list has a program, the same with any bound on the recursion that is large
enough for the number of tokens.  With this bound each parser ends wherever it is started,
and the tokens that it looks at and moves to have indices in the closed list. -/
theorem parse_terminates (list : List Token) :
    (∃ last, ∀ depth, 4 * list.length + 3 ≤ depth →
      (Grammar.standard.parts depth).program (Cursor.ofTokens list) =
        ⟨.success (parse list).program.statements, (parse list).diagnostics, last⟩) ∧
    Grammar.standard.EndsOn (Cursor.ofTokens list).tokens (4 * list.length + 3) ∧
    ∀ (index : Nat) (h : index < (Cursor.ofTokens list).tokens.length),
      let cursor := Cursor.atIndex (Cursor.ofTokens list).tokens index h
      let next := Cursor.nextIndex (Cursor.ofTokens list).tokens index
      (Cursor.ofTokens list).tokens[index]? = some cursor.current ∧
        (Cursor.ofTokens list).tokens[next]? = some cursor.peek ∧
        cursor.advance = .atIndex (Cursor.ofTokens list).tokens next (Cursor.nextIndex_lt h) := by
  refine ⟨?_, Grammar.standard_endsOn list, fun index h => ?_⟩
  · have hwithin : (Cursor.ofTokens list).Within (4 * list.length + 3) :=
      Cursor.within_ofTokens list
    obtain ⟨statements, recorded, last, hprogram⟩ := Grammar.exists_program hwithin
    refine ⟨last, fun depth hdepth => ?_⟩
    rw [parse_eq hwithin hprogram, ← hprogram]
    exact Grammar.program_eq_of_within (hwithin.mono hdepth) hwithin
  · exact ⟨List.getElem?_eq_getElem h, Cursor.getElem?_nextIndex h, Cursor.advance_atIndex h⟩

end LineScript
