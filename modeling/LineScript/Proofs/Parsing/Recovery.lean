import LineScript.Proofs.Parsing.Provenance
import LineScript.Proofs.Parsing.Termination
import Mathlib.Order.Bounds.Defs

/-!
# Where skipping stops

A broken statement is skipped up to the first token where parsing can go on.  This is said here
without a count that is kept on the way: the tokens end there, or a line or a block does and as
many braces are closed as opened among the skipped tokens.
-/

namespace LineScript

/-! ## The depth as a difference -/

namespace Token

variable {depth inner : Nat}

theorem add_countP_of_depthAfter {token : Token} (h : token.depthAfter depth = some inner) :
    inner + [token].countP (·.kind = .closeCurly) =
      depth + [token].countP (·.kind = .openCurly) := by
  by_cases hopen : token.kind = .openCurly
  · rw [depthAfter_of_openCurly hopen, Option.some_inj] at h
    simp [hopen, h]
  by_cases hclose : token.kind = .closeCurly
  · cases depth with
    | zero => simp [depthAfter, hclose] at h
    | succ depth =>
        rw [depthAfter_of_closeCurly hclose, Option.some_inj] at h
        simp [hclose, h]
  · rw [depthAfter_of_other hopen hclose, Option.some_inj] at h
    simp [hopen, hclose, h]

/-- The braces that are open behind the tokens are those that were open before them, and those
that they open and do not close. -/
theorem add_countP_of_depthBehind {tokens : List Token}
    (h : depthBehind depth tokens = some inner) :
    inner + tokens.countP (·.kind = .closeCurly) =
      depth + tokens.countP (·.kind = .openCurly) := by
  induction tokens generalizing depth with
  | nil => simpa using (Option.some_inj.mp h).symm
  | cons token others ih =>
      obtain ⟨middle, hdepth, hrest⟩ := Option.bind_eq_some_iff.mp h
      have hfirst := add_countP_of_depthAfter hdepth
      have hothers := ih hrest
      rw [← List.singleton_append, List.countP_append, List.countP_append]
      omega

end Token

namespace Cursor

/-! ## Skipped tokens -/

/-- Skipping goes on at every one of the tokens.  `depth` braces that were opened on the way are
open before them, and `inner` behind them. -/
inductive Skips : Nat → List Token → Nat → Prop where
  | nil (depth : Nat) : Skips depth [] depth
  | cons {token : Token} {others : List Token} {depth middle inner : Nat}
    (hgoes : ¬StopsAt depth token) (hdepth : token.depthAfter depth = some middle)
    (hothers : Skips middle others inner) : Skips depth (token :: others) inner

namespace Skips

variable {depth inner : Nat} {tokens front rest : List Token} {token : Token}

theorem depthBehind_eq (h : Skips depth tokens inner) :
    Token.depthBehind depth tokens = some inner := by
  induction h with
  | nil => rfl
  | cons _ hdepth _ ih => rw [Token.depthBehind_cons hdepth, ih]

theorem kind_ne_endOfInput (h : Skips depth tokens inner) :
    ∀ token ∈ tokens, token.kind ≠ .endOfInput := by
  induction h with
  | nil => exact List.forall_mem_nil _
  | cons hgoes _ _ ih => exact List.forall_mem_cons.mpr ⟨fun hend => hgoes (.inl hend), ih⟩

/-- Skipping a front part leaves some number of braces open, at which it also goes on behind it. -/
theorem exists_front (h : Skips depth (front ++ rest) inner) :
    ∃ middle, Skips depth front middle ∧ Skips middle rest inner := by
  induction front generalizing depth with
  | nil => exact ⟨depth, .nil depth, h⟩
  | cons token others ih =>
      cases h with
      | cons hgoes hdepth hothers =>
          obtain ⟨middle, hfront, hrest⟩ := ih hothers
          exact ⟨middle, .cons hgoes hdepth hfront, hrest⟩

theorem not_stopsAt (h : Skips depth (token :: rest) inner) : ¬StopsAt depth token := by
  cases h with
  | cons hgoes _ _ => exact hgoes

end Skips

/-- Skipping passes over tokens at which it goes on, and stops at one where it does not. -/
theorem Closed.exists_skips {current : Token} {upcoming : List Token}
    (h : (Cursor.mk current upcoming).Closed) (depth : Nat) :
    ∃ skipped inner, (Cursor.mk current upcoming).Passes skipped (resync depth current upcoming) ∧
      Skips depth skipped inner ∧ StopsAt inner (resync depth current upcoming).current := by
  induction upcoming generalizing depth current with
  | nil =>
      have hend : current.kind = .endOfInput := h current (by simp [tokens])
      exact ⟨[], depth, .refl _, .nil depth, .inl hend⟩
  | cons next others ih =>
      by_cases hstops : StopsAt depth current
      · rw [resync_of_stopsAt hstops]
        exact ⟨[], depth, .refl _, .nil depth, hstops⟩
      · obtain ⟨middle, hmiddle⟩ := exists_depthAfter_of_not_stopsAt hstops
        obtain ⟨skipped, inner, hpasses, hskips, hreached⟩ := ih h.advance middle
        rw [resync_of_not_stopsAt hstops hmiddle]
        have hstep : (Cursor.mk current (next :: others)).Passes [current] ⟨next, others⟩ := rfl
        exact ⟨current :: skipped, inner, hstep.trans hpasses, .cons hstops hmiddle hskips,
          hreached⟩

/-! ## Indices at which parsing can go on -/

/-- The tokens from the one at `start` on and before the one at `index`. -/
def between (tokens : List Token) (start index : Nat) : List Token :=
  (tokens.drop start).take (index - start)

/-- Parsing can go on at `index` after a statement that is broken at `start`: the tokens end there,
or a line or a block does and no brace is open that was opened on the way. -/
structure GoesOnAt (tokens : List Token) (start index : Nat) : Prop where
  start_le : start ≤ index
  exists_token : ∃ token ∈ tokens[index]?, token.kind = .endOfInput ∨
    (token.kind = .newline ∨ token.kind = .closeCurly) ∧
      (between tokens start index).countP (·.kind = .openCurly) =
        (between tokens start index).countP (·.kind = .closeCurly)

variable {tokens skipped rest : List Token} {start inner : Nat}

theorem between_of_drop_eq (h : tokens.drop start = skipped ++ rest) :
    between tokens start (start + skipped.length) = skipped := by
  rw [between, h, Nat.add_sub_cancel_left, List.take_left]

/-- Behind skipped tokens, parsing can go on where skipping stops. -/
theorem goesOnAt_of_skips {token : Token} (h : tokens.drop start = skipped ++ token :: rest)
    (hskips : Skips 0 skipped inner) (hstops : StopsAt inner token) :
    GoesOnAt tokens start (start + skipped.length) := by
  refine ⟨Nat.le_add_right _ _, token, ?_, ?_⟩
  · rw [← List.getElem?_drop, h, List.getElem?_append_right (Nat.le_refl _), Nat.sub_self]
    rfl
  · refine hstops.imp_right fun hline => ⟨hline.2, ?_⟩
    have hcount := Token.add_countP_of_depthBehind hskips.depthBehind_eq
    rw [between_of_drop_eq h]
    omega

/-- Parsing cannot go on at a skipped token. -/
theorem GoesOnAt.le_of_skips {index : Nat} (hgoes : GoesOnAt tokens start index)
    (h : tokens.drop start = skipped ++ rest) (hskips : Skips 0 skipped inner) :
    start + skipped.length ≤ index := by
  refine Nat.le_of_not_lt fun hlt => ?_
  obtain ⟨hle, token, htoken, hkind⟩ := hgoes
  obtain ⟨offset, rfl⟩ := Nat.exists_eq_add_of_le hle
  have hoffset : offset < skipped.length := by omega
  have hsplit : skipped = skipped.take offset ++ skipped[offset] :: skipped.drop (offset + 1) := by
    rw [← List.drop_eq_getElem_cons hoffset, List.take_append_drop]
  have hcurrent : token = skipped[offset] := by
    rw [← List.getElem?_drop, h, List.getElem?_append_left hoffset,
      List.getElem?_eq_getElem hoffset, Option.mem_some] at htoken
    exact htoken.symm
  have hbetween : between tokens start (start + offset) = skipped.take offset := by
    rw [between, h, Nat.add_sub_cancel_left, List.take_append_of_le_length (Nat.le_of_lt hoffset)]
  rw [hsplit] at hskips
  obtain ⟨middle, hfront, hrest⟩ := hskips.exists_front
  apply hrest.not_stopsAt
  rw [← hcurrent]
  refine hkind.imp_right fun hline => ⟨?_, hline.1⟩
  have hcount := Token.add_countP_of_depthBehind hfront.depthBehind_eq
  rw [hbetween] at hline
  omega

theorem closed_atIndex (hclosed : ∀ last ∈ tokens.getLast?, last.kind = .endOfInput)
    (hstart : start < tokens.length) : (atIndex tokens start hstart).Closed := by
  rw [Closed, tokens_atIndex, List.getLast?_drop, if_neg (Nat.not_le_of_lt hstart)]
  exact hclosed

/-- Recovery from a broken statement records the diagnostic that it is given and nothing else, and
moves to the first token where parsing can go on.  It passes over no end of input and over no
closing brace of the braces around the statement, and where it stops it would stop again. -/
theorem recover_isLeast (hclosed : ∀ last ∈ tokens.getLast?, last.kind = .endOfInput)
    (hstart : start < tokens.length) (diagnostic : Diagnostic) :
    ∃ (index : Nat) (hindex : index < tokens.length),
      Parser.recover diagnostic (.atIndex tokens start hstart) =
          ⟨.success (), [diagnostic], .atIndex tokens index hindex⟩ ∧
        IsLeast {index | GoesOnAt tokens start index} index ∧
        (∀ token ∈ between tokens start index, token.kind ≠ .endOfInput) ∧
        (∀ front, front <+: between tokens start index →
          front.countP (·.kind = .closeCurly) ≤ front.countP (·.kind = .openCurly)) ∧
        ∀ other : Diagnostic, Parser.recover other (.atIndex tokens index hindex) =
          ⟨.success (), [other], .atIndex tokens index hindex⟩ := by
  obtain ⟨skipped, inner, hpasses, hskips, hstops⟩ :=
    (closed_atIndex hclosed hstart).exists_skips 0
  obtain ⟨hindex, hreached⟩ := hpasses.exists_eq_atIndex
  rw [hreached] at hpasses hstops
  have hdrop : tokens.drop start =
      skipped ++ tokens[start + skipped.length] :: tokens.drop (start + skipped.length + 1) :=
    (tokens_atIndex hstart).symm.trans hpasses
  refine ⟨start + skipped.length, hindex, ?_, ⟨goesOnAt_of_skips hdrop hskips hstops, ?_⟩, ?_, ?_,
    fun other => ?_⟩
  · rw [← hreached]
    rfl
  · exact fun index hgoes => hgoes.le_of_skips hdrop hskips
  · rw [between_of_drop_eq hdrop]
    exact hskips.kind_ne_endOfInput
  · rw [between_of_drop_eq hdrop]
    rintro front ⟨rest, rfl⟩
    obtain ⟨middle, hfront, -⟩ := hskips.exists_front
    have hcount := Token.add_countP_of_depthBehind hfront.depthBehind_eq
    omega
  · rw [Parser.recover, resync_of_stopsAt hstops.zero]

/-- The tokens of `func \x7b`, `y` and `\x7d` on three lines and `z` on a fourth: a function without
a name. -/
def namelessFunction : List Token :=
  [⟨.kwFunc, "func", ⟨1, 1⟩⟩, ⟨.openCurly, "\x7b", ⟨1, 6⟩⟩, ⟨.newline, "\n", ⟨1, 7⟩⟩,
    ⟨.identifier, "y", ⟨2, 1⟩⟩, ⟨.newline, "\n", ⟨2, 2⟩⟩, ⟨.closeCurly, "\x7d", ⟨3, 1⟩⟩,
    ⟨.newline, "\n", ⟨3, 2⟩⟩, ⟨.identifier, "z", ⟨4, 1⟩⟩, .endAt ⟨4, 1⟩]

/-- All of its body is skipped, and parsing goes on at the line end behind it. -/
theorem recover_isLeast_namelessFunction :
    (∀ last ∈ namelessFunction.getLast?, last.kind = .endOfInput) ∧
      Parser.recover ⟨.expectedToken .identifier .openCurly, ⟨1, 6⟩⟩
          (.atIndex namelessFunction 0 (by decide)) =
        ⟨.success (), [⟨.expectedToken .identifier .openCurly, ⟨1, 6⟩⟩],
          .atIndex namelessFunction 6 (by decide)⟩ ∧
      IsLeast {index | GoesOnAt namelessFunction 0 index} 6 := by
  have hclosed : ∀ last ∈ namelessFunction.getLast?, last.kind = .endOfInput := by decide
  have hstart : 0 < namelessFunction.length := by decide
  obtain ⟨index, hindex, hrecover, hleast, -⟩ :=
    recover_isLeast hclosed hstart ⟨.expectedToken .identifier .openCurly, ⟨1, 6⟩⟩
  have hcursor : Cursor.atIndex namelessFunction 6 (by decide) =
      .atIndex namelessFunction index hindex :=
    congrArg Outcome.cursor hrecover
  have hlength := congrArg (List.length ∘ Cursor.upcoming) hcursor
  have hsix : index = 6 := by
    simp only [atIndex, Function.comp_apply, List.length_drop] at hlength
    have hnine : namelessFunction.length = 9 := rfl
    omega
  subst hsix
  exact ⟨hclosed, hrecover, hleast⟩

end Cursor

end LineScript
