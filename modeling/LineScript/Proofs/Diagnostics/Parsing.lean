import LineScript.Proofs.Diagnostics.Order
import LineScript.Proofs.Parsing.Program

/-!
# Where a parser's diagnostics stand

A parser complains about the token that it sees or about the next one, and it never turns back.
So the diagnostics of a program stand at its tokens and come in their order, whatever is wrong
with it: a failure is recorded before anything behind it is read, and where parsing goes on
after a failure, the token that the failure is about is at most the next one.
-/

namespace LineScript

namespace Cursor

variable {source : List Token} {recorded : List Diagnostic} {cursor reached : Cursor}
variable {diagnostic : Diagnostic}

/-- The diagnostics are in order, also with any behind them that stand from the current token on. -/
structure AtCurrent (source : List Token) (recorded : List Diagnostic) (cursor : Cursor) :
    Prop where
  isSealed : cursor.Sealed
  inOrder : ∀ more, InOrder cursor.tokens more → InOrder source (recorded ++ more)

/-- The diagnostics are in order, also with any behind them that stand from the next token on. -/
structure AtNext (source : List Token) (recorded : List Diagnostic) (cursor : Cursor) :
    Prop where
  isSealed : cursor.Sealed
  inOrder : ∀ more, InOrder cursor.advance.tokens more → InOrder source (recorded ++ more)

theorem Reaches.sublist (h : cursor.Reaches reached) : reached.tokens.Sublist cursor.tokens := by
  obtain ⟨passed, hpassed⟩ := h
  rw [hpassed]
  exact List.sublist_append_right passed reached.tokens

/-- Of two cursors one of which lies behind the other, the next tokens lie so too. -/
theorem Reaches.advance_advance (h : cursor.Reaches reached) :
    cursor.advance.Reaches reached.advance := by
  obtain ⟨passed, hpassed⟩ := h
  cases passed with
  | nil =>
      rw [eq_of_tokens_eq hpassed]
      exact .refl _
  | cons token others =>
      obtain ⟨current, upcoming⟩ := cursor
      obtain ⟨rfl, hupcoming⟩ := List.cons.inj hpassed
      have hadvance : (advance ⟨current, upcoming⟩).Passes others reached := by
        obtain rfl : upcoming = others ++ reached.tokens := hupcoming
        cases others <;> rfl
      exact hadvance.reaches.trans reached.reaches_advance

theorem Sealed.atCurrent (h : cursor.Sealed) : AtCurrent cursor.tokens [] cursor :=
  ⟨h, fun _ hmore => hmore⟩

/-- The current token need not be complained about. -/
theorem AtCurrent.next (h : AtCurrent source recorded cursor) : AtNext source recorded cursor :=
  ⟨h.isSealed, fun more hmore => h.inOrder more (hmore.sublist cursor.reaches_advance.sublist)⟩

theorem AtNext.advance (h : AtNext source recorded cursor) :
    AtCurrent source recorded cursor.advance :=
  ⟨cursor.reaches_advance.isSealed h.isSealed, h.inOrder⟩

/-- At the end of input the next token is the current one. -/
theorem AtNext.atCurrent (h : AtNext source recorded cursor)
    (hend : cursor.current.kind = .endOfInput) : AtCurrent source recorded cursor := by
  have hself := advance_eq_self (h.isSealed.current_eq_endOfInput_iff.mp hend)
  refine ⟨h.isSealed, fun more hmore => h.inOrder more ?_⟩
  rwa [hself]

/-- A complaint about the current token. -/
theorem AtCurrent.report (h : AtCurrent source recorded cursor)
    (hposition : diagnostic.position = cursor.current.position) :
    AtCurrent source (recorded ++ [diagnostic]) cursor := by
  refine ⟨h.isSealed, fun more hmore => ?_⟩
  rw [List.append_assoc]
  exact h.inOrder _ (.here hposition hmore)

/-- A complaint about the next token. -/
theorem AtNext.report (h : AtNext source recorded cursor)
    (hposition : diagnostic.position = cursor.peek.position) :
    AtNext source (recorded ++ [diagnostic]) cursor := by
  refine ⟨h.isSealed, fun more hmore => ?_⟩
  rw [List.append_assoc]
  exact h.inOrder _ (.here (by rwa [current_advance]) hmore)

/-- Tokens may be passed over. -/
theorem AtNext.of_reaches (h : AtNext source recorded cursor) (hreaches : cursor.Reaches reached) :
    AtNext source recorded reached :=
  ⟨hreaches.isSealed h.isSealed,
    fun more hmore => h.inOrder more (hmore.sublist hreaches.advance_advance.sublist)⟩

end Cursor

/-- What may still be complained about, depending on what has been done with the current token. -/
def Trace.ReportsAt (source : List Token) (phase : Phase) (trace : Trace) : Prop :=
  match phase with
  | .here => Cursor.AtCurrent source trace.recorded trace.cursor
  | .broken diagnostic => Cursor.AtNext source (trace.recorded ++ [diagnostic]) trace.cursor
  | .past | .rest | .stops | .closes | .skipped =>
    Cursor.AtNext source trace.recorded trace.cursor

open Cursor in
/-- The tokens that may still be complained about. -/
def watchDiagnostics (source : List Token) : Tracing where
  At phase _ _ _ s := s.ReportsAt source phase
  Lines _ _ := True
  mono h _ := h
  keep h _ := AtCurrent.next h
  drop h _ := AtCurrent.next h
  enter h _ := ⟨(AtCurrent.next h).advance, trivial⟩
  leave h := h
  rest_past h := h
  rest_newline h _ := AtCurrent.next h
  advance_past h := AtNext.advance h
  advance_peek h _ := AtNext.advance h
  advance_rest h _ := AtNext.advance h
  advance_skipped h _ _ _ := AtNext.advance h
  stops_here h _ := AtCurrent.next h
  stops_skipped h _ := h
  closes_stops h _ := h
  lines_advance h := h
  fails diagnostic s := AtNext source (s.recorded ++ [diagnostic]) s.cursor
  lines _ _ := trivial
  resume h := AtNext.advance h
  fail _ h := (AtCurrent.report h rfl).next
  missing _ h := AtNext.report h rfl
  note _ h := AtCurrent.report h rfl
  unclosed _ h hend := ((AtNext.atCurrent h hend).report rfl).next
  broken _ _ _ h := h
  recover h hreaches := AtNext.of_reaches h hreaches

/-- The diagnostics of a program stand at its tokens and come in their order. -/
theorem inOrder_parse {list : List Token}
    (hend : ∀ token ∈ list.dropLast, token.kind ≠ .endOfInput) :
    InOrder (Cursor.ofTokens list).tokens (parse list).diagnostics := by
  obtain ⟨last, -, -, -, hlast, -⟩ :=
    exists_parse (watchDiagnostics (Cursor.ofTokens list).tokens) false False
      (Cursor.isSealed_ofTokens hend).atCurrent
  simpa using Cursor.AtNext.inOrder hlast [] (.nil _)

end LineScript
