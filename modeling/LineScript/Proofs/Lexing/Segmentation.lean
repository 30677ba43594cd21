import LineScript.Proofs.Lexing.Lexeme

/-!
# Segmentation of a text

Every text is cut in exactly one way into lexemes with blanks before them, and blanks at
its end.  The lexer makes one token of each lexeme, and a last one behind them all; no
character is lost and none is looked at twice.
-/

namespace LineScript

/-- A lexeme and the blanks before it. -/
structure Segment where
  blanks : List Char
  spelling : List Char
  kind : TokenKind
  text : String

/-- The characters are those of the segments, in order, and blanks behind them. -/
inductive Segmentation : List Char → List Segment → Prop where
  | nil {blanks : List Char} (hblanks : ∀ c ∈ blanks, IsSeparator c) : Segmentation blanks []
  | cons {blanks spelling rest : List Char} {kind : TokenKind} {text : String}
    {segments : List Segment} (hblanks : ∀ c ∈ blanks, IsSeparator c)
    (hlexeme : Lexeme spelling rest kind text) (hrest : Segmentation rest segments) :
    Segmentation (blanks ++ (spelling ++ rest)) (⟨blanks, spelling, kind, text⟩ :: segments)

/-! ## There is exactly one -/

theorem Lexeme.exists_cons {spelling rest : List Char} {kind : TokenKind} {text : String}
    (h : Lexeme spelling rest kind text) :
    ∃ first taken, spelling = first :: taken ∧ ¬ IsSeparator first := by
  obtain ⟨first, taken, rfl, htakes⟩ := h.exists_takes
  exact ⟨first, taken, rfl, fun hblank => htakes.ne_blank (Opening.ofChar_of_isSeparator hblank)⟩

/-- Blanks end at the first character that is none. -/
theorem eq_of_append_cons {left right others behind : List Char} {first second : Char}
    (hleft : ∀ c ∈ left, IsSeparator c) (hright : ∀ c ∈ right, IsSeparator c)
    (hfirst : ¬ IsSeparator first) (hsecond : ¬ IsSeparator second)
    (heq : left ++ first :: others = right ++ second :: behind) :
    right = left ∧ second :: behind = first :: others := by
  induction left generalizing right with
  | nil =>
      cases right with
      | nil => exact ⟨rfl, heq.symm⟩
      | cons c _ =>
          obtain ⟨rfl, -⟩ := List.cons.inj heq
          exact absurd (hright _ List.mem_cons_self) hfirst
  | cons b left ih =>
      cases right with
      | nil =>
          obtain ⟨rfl, -⟩ := List.cons.inj heq
          exact absurd (hleft _ List.mem_cons_self) hsecond
      | cons c right =>
          obtain ⟨rfl, htail⟩ := List.cons.inj heq
          obtain ⟨rfl, hbehind⟩ := ih (fun c hc => hleft c (List.mem_cons_of_mem _ hc))
            (fun c hc => hright c (List.mem_cons_of_mem _ hc)) htail
          exact ⟨rfl, hbehind⟩

namespace Segmentation

variable {chars : List Char} {segments others : List Segment}

theorem unique (h : Segmentation chars segments) (hother : Segmentation chars others) :
    others = segments := by
  induction h generalizing others with
  | nil hblanks =>
      cases hother with
      | nil _ => rfl
      | cons _ hlexeme _ =>
          obtain ⟨first, taken, rfl, hfirst⟩ := hlexeme.exists_cons
          exact absurd (hblanks first (by simp)) hfirst
  | @cons blanks spelling rest kind text segments hblanks hlexeme hrest ih =>
      obtain ⟨first, taken, rfl, hfirst⟩ := hlexeme.exists_cons
      generalize hchars : blanks ++ (first :: taken ++ rest) = chars at hother
      cases hother with
      | nil hall => exact absurd (hall first (by simp [← hchars])) hfirst
      | cons hblanks' hlexeme' hrest' =>
          obtain ⟨second, taken', rfl, hsecond⟩ := hlexeme'.exists_cons
          obtain ⟨rfl, hbehind⟩ := eq_of_append_cons hblanks hblanks' hfirst hsecond hchars
          obtain ⟨hspelling, rfl, rfl, rfl⟩ := hlexeme.unique hlexeme' hbehind.symm
          rw [hspelling, ih hrest']

theorem eq_nil (h : Segmentation [] segments) : segments = [] :=
  unique (.nil (List.forall_mem_nil _)) h

/-- A blank in front of a text goes to its first segment. -/
theorem exists_blank {c : Char} (hc : IsSeparator c) (h : Segmentation chars segments) :
    ∃ others, Segmentation (c :: chars) others ∧
      others.map (fun segment => (segment.kind, segment.text)) =
        segments.map fun segment => (segment.kind, segment.text) := by
  have hall {blanks : List Char} (hblanks : ∀ c ∈ blanks, IsSeparator c) :
      ∀ b ∈ c :: blanks, IsSeparator b :=
    List.forall_mem_cons.mpr ⟨hc, hblanks⟩
  cases h with
  | nil hblanks => exact ⟨_, .nil (hall hblanks), rfl⟩
  | cons hblanks hlexeme hrest => exact ⟨_, .cons (hall hblanks) hlexeme hrest, rfl⟩

theorem exists_segmentation (chars : List Char) : ∃ segments, Segmentation chars segments := by
  -- A lexeme takes at least one character, so the rest of the text is shorter.
  induction hlength : chars.length using Nat.strongRecOn generalizing chars with
  | _ length ih =>
      cases chars with
      | nil => exact ⟨[], .nil (by simp)⟩
      | cons first behind =>
          by_cases hfirst : IsSeparator first
          · obtain ⟨segments, h⟩ := ih behind.length (by simp [← hlength]) behind rfl
            obtain ⟨others, hothers, -⟩ := h.exists_blank hfirst
            exact ⟨others, hothers⟩
          · obtain ⟨taken, rest, kind, text, rfl, hlexeme⟩ := Lexeme.exists_lexeme hfirst behind
            have hshorter : rest.length < length := by
              rw [← hlength, List.length_cons, List.length_append]
              omega
            obtain ⟨segments, h⟩ := ih rest.length hshorter rest rfl
            exact ⟨_, Segmentation.cons (List.forall_mem_nil _) hlexeme h⟩

end Segmentation

/-! ## The lexer follows it -/

namespace Lexer

variable {position : Position} {blanks spelling rest chars : List Char} {kind : TokenKind}
variable {text : String} {segments : List Segment}

theorem scan_of_isSeparator (h : ∀ c ∈ blanks, IsSeparator c) (readings : List Reading) :
    scan position (blanks.map .char ++ readings) = scan (position.afterAll blanks) readings := by
  induction blanks generalizing position with
  | nil => rfl
  | cons c others ih =>
      rw [List.map_cons, List.cons_append, scan,
        Opening.ofChar_of_isSeparator (h c List.mem_cons_self)]
      exact ih fun b hb => h b (List.mem_cons_of_mem _ hb)

theorem scan_of_takes {first : Char} {taken : List Char}
    (h : Opening.Takes first taken rest kind text) :
    scan position ((first :: taken ++ rest).map .char) =
      (.ok ⟨kind, text, position.right⟩,
        ⟨rest.map .char, position.afterAll (first :: taken), false⟩) := by
  rw [List.cons_append, List.map_cons, scan_of_ne_blank h.ne_blank]
  simp only [h.run_eq, h.kind_eq, h.text_eq, Position.afterAll_cons]

/-- One call reads the blanks and the lexeme of a segment. -/
theorem next_of_lexeme (hblanks : ∀ c ∈ blanks, IsSeparator c)
    (hlexeme : Lexeme spelling rest kind text) :
    (Lexer.mk ((blanks ++ (spelling ++ rest)).map .char) position false).next =
      (.ok ⟨kind, text, (position.afterAll blanks).right⟩,
        ⟨rest.map .char, position.afterAll (blanks ++ spelling), false⟩) := by
  obtain ⟨first, taken, rfl, htakes⟩ := hlexeme.exists_takes
  rw [next, if_neg (by simp), List.map_append, scan_of_isSeparator hblanks, scan_of_takes htakes,
    Position.afterAll_append]

/-- Behind the last lexeme a call reads the blanks that are left. -/
theorem next_of_blanks (hblanks : ∀ c ∈ blanks, IsSeparator c) :
    (Lexer.mk (blanks.map .char) position false).next =
      (.ok (.endAt (position.afterAll blanks)), ⟨[], position.afterAll blanks, true⟩) := by
  rw [next, if_neg (by simp), ← List.append_nil (blanks.map _), scan_of_isSeparator hblanks, scan]

theorem tokens_of_next {lexer behind : Lexer} {token : Token}
    (h : lexer.next = (.ok token, behind)) (hkind : token.kind ≠ .endOfInput) :
    lexer.tokens = behind.tokens.map (token :: ·) := by
  rw [tokens]
  split
  · simp_all
  · simp_all

theorem tokens_of_next_endAt {lexer behind : Lexer}
    (h : lexer.next = (.ok (.endAt position), behind)) :
    lexer.tokens = .ok [.endAt position] := by
  rw [tokens]
  split
  · simp_all
  · simp_all [Token.endAt]

end Lexer

theorem Word.kind_mem (word : String) :
    Word.kind word ∈ TokenKind.identifier :: meanings.map Prod.snd := by
  unfold Word.kind
  cases hword : meanings.lookup word with
  | none => exact List.mem_cons_self
  | some kind =>
      obtain ⟨before, behind, heq, -⟩ := List.lookup_eq_some_iff.mp hword
      have hmem : (word, kind) ∈ meanings := by simp [heq]
      exact List.mem_cons_of_mem _ (List.mem_map_of_mem hmem)

theorem Word.kind_ne_endOfInput (word : String) : Word.kind word ≠ .endOfInput := by
  intro hkind
  have hmem := Word.kind_mem word
  rw [hkind] at hmem
  revert hmem
  decide

theorem Lexeme.kind_ne_endOfInput {spelling rest : List Char} {kind : TokenKind} {text : String}
    (h : Lexeme spelling rest kind text) : kind ≠ .endOfInput := by
  cases h with
  | sign hsign => cases hsign <;> simp
  | directive _ _ => split <;> simp
  | word _ _ _ => exact Word.kind_ne_endOfInput _
  | _ => simp

namespace Segment

/-- The tokens that the segments make behind `position`. -/
def tokens (position : Position) : List Segment → List Token
  | [] => []
  | segment :: others =>
    ⟨segment.kind, segment.text, (position.afterAll segment.blanks).right⟩ ::
      tokens (position.afterAll (segment.blanks ++ segment.spelling)) others

end Segment

theorem Segmentation.tokens_eq {chars : List Char} {segments : List Segment}
    (h : Segmentation chars segments) (position : Position) :
    (Lexer.mk (chars.map .char) position false).tokens =
      .ok (Segment.tokens position segments ++ [.endAt (position.afterAll chars)]) := by
  induction h generalizing position with
  | nil hblanks => exact Lexer.tokens_of_next_endAt (Lexer.next_of_blanks hblanks)
  | cons hblanks hlexeme _ ih =>
      rw [Lexer.tokens_of_next (Lexer.next_of_lexeme hblanks hlexeme) hlexeme.kind_ne_endOfInput,
        ih]
      simp [Segment.tokens, Except.map, Position.afterAll_append]

theorem Segment.map_kind_text_tokens (position : Position) (segments : List Segment) :
    (tokens position segments).map (fun token => (token.kind, token.text)) =
      segments.map fun segment => (segment.kind, segment.text) := by
  induction segments generalizing position with
  | nil => rfl
  | cons segment others ih => simp [tokens, ih]

theorem Segmentation.kind_ne_endOfInput {chars : List Char} {segments : List Segment}
    (h : Segmentation chars segments) : ∀ segment ∈ segments, segment.kind ≠ .endOfInput := by
  induction h with
  | nil _ => simp
  | cons _ hlexeme _ ih =>
      intro segment hsegment
      rcases List.mem_cons.mp hsegment with rfl | hsegment
      · exact hlexeme.kind_ne_endOfInput
      · exact ih segment hsegment

theorem Segmentation.kind_ne_endOfInput_of_mem_tokens {chars : List Char}
    {segments : List Segment} (h : Segmentation chars segments) (position : Position) :
    ∀ token ∈ Segment.tokens position segments, token.kind ≠ .endOfInput := by
  induction h generalizing position with
  | nil _ => exact List.forall_mem_nil _
  | cons _ hlexeme _ ih => exact List.forall_mem_cons.mpr ⟨hlexeme.kind_ne_endOfInput, ih _⟩

/-- A text is cut into lexemes in one way, and its tokens are these lexemes, in order, and one
end of input behind them. -/
theorem exists_segmentation_tokenize (text : String) :
    ∃ segments tokens last,
      (Segmentation text.toList segments ∧
        ∀ others, Segmentation text.toList others → others = segments) ∧
      tokenize text = .ok (tokens ++ [last]) ∧
      tokens.map (fun token => (token.kind, token.text)) =
        segments.map (fun segment => (segment.kind, segment.text)) ∧
      (∀ token ∈ tokens, token.kind ≠ .endOfInput) ∧ last.kind = .endOfInput := by
  obtain ⟨segments, h⟩ := Segmentation.exists_segmentation text.toList
  have hmap := Segment.map_kind_text_tokens .start segments
  refine ⟨segments, Segment.tokens .start segments, .endAt (Position.start.afterAll text.toList),
    ⟨h, fun others hothers => h.unique hothers⟩, h.tokens_eq .start, hmap, ?_, rfl⟩
  intro token htoken
  have hmem := List.mem_map_of_mem (f := fun token : Token => (token.kind, token.text)) htoken
  rw [hmap] at hmem
  obtain ⟨segment, hsegment, heq⟩ := List.mem_map.mp hmem
  rw [← (Prod.mk.inj heq).1]
  exact h.kind_ne_endOfInput segment hsegment

end LineScript
