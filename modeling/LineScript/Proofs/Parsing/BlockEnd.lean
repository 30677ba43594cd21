import LineScript.Proofs.Parsing.Abreast
import LineScript.Proofs.Parsing.Depth

/-!
# Where a block ends

The brace that a block should end at is the one that closes its opening brace when the
braces are counted from there.  It does unless a statement within the block fails right
behind another block: skipping that statement then ends the block at a brace that is
already closed, and the statements behind it go to the construct around the block.
-/

namespace LineScript

namespace Cursor

/-- The cursor at the first brace that closes none of those opened on the way, or at the last
token if there is no such brace.  `depth` counts the braces that are open. -/
def closingBrace (depth : Nat) (current : Token) : List Token → Cursor
  | [] => ⟨current, []⟩
  | next :: others =>
    match current.depthAfter depth with
    | none => ⟨current, next :: others⟩
    | some inner => closingBrace inner next others

/-- The cursor at the brace that closes the current one, or at the last token if none does. -/
def matchingBrace (cursor : Cursor) : Cursor :=
  closingBrace 0 cursor.advance.current cursor.advance.upcoming

variable {depth : Nat} {current : Token} {upcoming : List Token} {cursor : Cursor}

theorem Sealed.current_ne_endOfInput {next : Token} {others : List Token}
    (h : (Cursor.mk current (next :: others)).Sealed) : current.kind ≠ .endOfInput := by
  intro hend
  have hnil := h.current_eq_endOfInput_iff.mp hend
  cases hnil

theorem Sealed.behind {next : Token} {others : List Token}
    (h : (Cursor.mk current (next :: others)).Sealed) : (Cursor.mk next others).Sealed :=
  (reaches_advance ⟨current, next :: others⟩).isSealed h

/-- The brace that closes those around a cursor is a border of the tokens up to it. -/
theorem Sealed.exists_border (h : (Cursor.mk current upcoming).Sealed) (depth : Nat) :
    ∃ border : Border, closingBrace depth current upcoming = ⟨border.token, border.left⟩ ∧
      border.token.kind ≠ .newline ∧
        border.Before depth ⟨current, upcoming⟩ ⟨current, upcoming⟩ := by
  induction upcoming generalizing depth current with
  | nil =>
      have hend : current.kind = .endOfInput := h.current_eq_endOfInput_iff.mpr rfl
      exact ⟨⟨current, [], [], .inr (.inr hend), fun _ => ⟨rfl, rfl⟩⟩, rfl, by simp [hend],
        .border (.inl hend)⟩
  | cons next others ih =>
      have hne := h.current_ne_endOfInput
      unfold closingBrace
      cases hdepth : current.depthAfter depth with
      | none =>
          obtain ⟨hclose, hzero⟩ := Token.depthAfter_eq_none_iff.mp hdepth
          exact ⟨⟨current, next :: others, next :: others, .inr (.inl hclose),
            fun hend => absurd hend hne⟩, rfl, by simp [hclose], .border (.inr hzero)⟩
      | some inner =>
          obtain ⟨border, hclosing, hline, hshared⟩ := ih h.behind inner
          exact ⟨border, hclosing, hline, .cons hne hdepth hshared⟩

end Cursor

namespace Border

variable {border : Border} {depth : Nat} {left right : Cursor}

/-- At the end of input, and at a closing brace that closes none of those around it, a cursor
is at the border. -/
theorem Before.eq_border (h : border.Before depth left right)
    (hend : left.current.kind = .endOfInput ∨ left.current.kind = .closeCurly ∧ depth = 0) :
    left = ⟨border.token, border.left⟩ := by
  obtain ⟨_, hleft, _⟩ | ⟨inner, hne, hdepth, _⟩ := h.cases
  · exact hleft
  · rcases hend with heof | hclose
    · exact absurd heof hne
    · rw [Token.depthAfter_eq_none_iff.mpr hclose] at hdepth
      cases hdepth

/-- A cursor is at the border only at the end of input or when no brace around it is open. -/
theorem Before.of_eq_border (h : border.Before depth left right)
    (heq : left = ⟨border.token, border.left⟩) :
    left.current.kind = .endOfInput ∨ depth = 0 := by
  obtain ⟨hborder, hleft, _⟩ | ⟨inner, _, _, hshared⟩ := h.cases
  · rw [hleft]
    exact hborder
  · obtain ⟨ahead, hahead, _⟩ := hshared.exists_append
    rw [heq] at hahead
    exact absurd (congrArg List.length hahead) (by simp; omega)

theorem Before.reaches_border (h : border.Before depth left right) :
    left.Reaches ⟨border.token, border.left⟩ := by
  obtain ⟨ahead, hahead, _⟩ := Shared.exists_append h
  exact ⟨ahead, hahead⟩

end Border

section Run

variable {cursor : Cursor}

/-- What a block leaves behind: it stops at a closing brace or at the end of input, up to which
as many braces stay open too many as statements failed right behind another block.  A cautious
block is exhausted if there are any. -/
theorem exists_block_slips (hsealed : cursor.Sealed) :
    ∃ (border : Border) (slips : Nat) (content : Block) (other : Cursor),
      cursor.matchingBrace = ⟨border.token, border.left⟩ ∧
      (Parser.block (cursor.parts .standard) cursor).verdict = .success content ∧
      ((Parser.block (cursor.cautiousParts .standard) cursor).verdict = .exhausted ↔ slips ≠ 0) ∧
      border.Before slips (Parser.block (cursor.parts .standard) cursor).cursor other ∧
      ((Parser.block (cursor.parts .standard) cursor).cursor.current.kind = .closeCurly ∨
        (Parser.block (cursor.parts .standard) cursor).cursor.current.kind = .endOfInput) := by
  have hadvance : cursor.advance.Sealed := cursor.reaches_advance.isSealed hsealed
  obtain ⟨border, hmatching, hline, hbefore⟩ := hadvance.exists_border 0
  have hlines : border.AdmitsLines 0 := fun h => absurd h hline
  have hne := (Grammar.block_agree (Nat.le_refl cursor.depth) (Nat.le_refl cursor.depth)
    hsealed.1.within_depth).verdict_ne
  let start : Pace := ⟨0, cursor, cursor⟩
  have hat : (keepingPace border true).At .here 3 0 [] start.advance := hbefore
  rw [Cursor.parts, Cursor.cautiousParts]
  cases (Grammar.onParts_keepingPace_cautious border cursor.depth 1).openBlock rfl hat hlines with
  | @success content _ recorded t hblock hcautious hends =>
      obtain ⟨-, -, -, hbehind, hend⟩ := hends
      rw [hblock]
      refine ⟨border, t.slip, content, t.right, hmatching, rfl, ⟨fun hexhausted hzero => ?_,
        hcautious.slips rfl⟩, hbehind, hend⟩
      rw [hcautious.same fun _ => hzero] at hexhausted
      cases hexhausted
  | @failure diagnostic _ _ hblock _ _ =>
      have hpersists := Parser.persists_block
        (Grammar.persists_parts_statements .standard cursor.depth)
      exact absurd (by rw [hblock]) (hpersists cursor diagnostic)
  | exhausted hblock _ => exact absurd (by rw [hblock]) hne

/-- A block never fails, and it never moves over the brace that closes its opening brace.  It
ends there exactly if no statement in it fails right behind another block, or if it takes all
tokens there are. -/
theorem block_cursor_eq_matchingBrace_iff (hsealed : cursor.Sealed) :
    (∃ content, (Parser.block (cursor.parts .standard) cursor).verdict = .success content) ∧
      (Parser.block (cursor.parts .standard) cursor).cursor.Reaches cursor.matchingBrace ∧
      ((Parser.block (cursor.parts .standard) cursor).cursor = cursor.matchingBrace ↔
        (Parser.block (cursor.cautiousParts .standard) cursor).verdict ≠ .exhausted ∨
          (Parser.block (cursor.parts .standard) cursor).cursor.current.kind = .endOfInput) := by
  obtain ⟨border, slips, content, other, hmatching, hverdict, hcautious, hbefore, hend⟩ :=
    exists_block_slips hsealed
  refine ⟨⟨content, hverdict⟩, hmatching ▸ hbefore.reaches_border, ?_, ?_⟩
  · intro heq
    rcases hbefore.of_eq_border (heq.trans hmatching) with heof | hzero
    · exact .inr heof
    · exact .inl fun hexhausted => hcautious.mp hexhausted hzero
  · intro hholds
    rw [hmatching]
    apply hbefore.eq_border
    rcases hend with hclose | heof
    · rcases hholds with hnot | heof
      · exact .inr ⟨hclose, Decidable.of_not_not fun hne => hnot (hcautious.mpr hne)⟩
      · exact .inl heof
    · exact .inl heof

end Run

/-- A block with a group that is not closed on its line. -/
def openGroup : Cursor :=
  Cursor.ofTokens
    [⟨.openCurly, "\x7b", ⟨1, 1⟩⟩, ⟨.openParen, "(", ⟨1, 2⟩⟩, ⟨.newline, "\n", ⟨1, 3⟩⟩,
      ⟨.identifier, "y", ⟨2, 1⟩⟩, ⟨.closeCurly, "\x7d", ⟨2, 2⟩⟩, .endAt ⟨2, 2⟩]

theorem block_openGroup_cursor :
    openGroup.Sealed ∧
      (Parser.block (openGroup.parts .standard) openGroup).cursor = openGroup.matchingBrace := by
  have hsealed : openGroup.Sealed := ⟨Cursor.closed_ofTokens _, by decide⟩
  exact ⟨hsealed, (block_cursor_eq_matchingBrace_iff hsealed).2.2.mpr (.inl nofun)⟩

/-- A block with a group that is not closed behind the conditional in it: the tokens of
`{(if(a){}b)` and, on the next line, `y}`. -/
def groupBehindBlock : Cursor :=
  Cursor.ofTokens
    [⟨.openCurly, "\x7b", ⟨1, 1⟩⟩, ⟨.openParen, "(", ⟨1, 2⟩⟩, ⟨.kwIf, "if", ⟨1, 3⟩⟩,
      ⟨.openParen, "(", ⟨1, 5⟩⟩, ⟨.identifier, "a", ⟨1, 6⟩⟩, ⟨.closeParen, ")", ⟨1, 7⟩⟩,
      ⟨.openCurly, "\x7b", ⟨1, 8⟩⟩, ⟨.closeCurly, "\x7d", ⟨1, 9⟩⟩, ⟨.identifier, "b", ⟨1, 10⟩⟩,
      ⟨.closeParen, ")", ⟨1, 11⟩⟩, ⟨.newline, "\n", ⟨1, 12⟩⟩, ⟨.identifier, "y", ⟨2, 1⟩⟩,
      ⟨.closeCurly, "\x7d", ⟨2, 2⟩⟩, .endAt ⟨2, 2⟩]

/-- The block ends at the closing brace of the conditional, and not at its own. -/
theorem block_groupBehindBlock_cursor :
    groupBehindBlock.Sealed ∧ groupBehindBlock.current.kind = .openCurly ∧
      (Parser.block (groupBehindBlock.parts .standard) groupBehindBlock).cursor.current =
        ⟨.closeCurly, "\x7d", ⟨1, 9⟩⟩ ∧
      groupBehindBlock.matchingBrace.current = ⟨.closeCurly, "\x7d", ⟨2, 2⟩⟩ :=
  ⟨⟨Cursor.closed_ofTokens _, by decide⟩, rfl, by decide, by decide⟩

end LineScript
