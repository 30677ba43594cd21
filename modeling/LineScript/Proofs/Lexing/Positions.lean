import LineScript.Proofs.Lexing.Lookahead
import LineScript.Proofs.Lexing.Segmentation

/-!
# Positions of tokens

The position of a token counts what comes before its spelling, and the position of the
lexer between two calls counts what comes before its next segment.  What a lexer looks at,
or reads and gives back, is counted nowhere.
-/

namespace LineScript

/-! ## Counting lines and columns -/

/-- The characters behind the last line end. -/
def lastLine (chars : List Char) : List Char :=
  (chars.reverse.takeWhile (· ≠ '\n')).reverse

/-- `position` is reached behind the characters `before`. -/
structure Position.Counts (position : Position) (before : List Char) : Prop where
  line_eq : position.line.toNat = 1 + before.count '\n'
  column_eq : position.column.toNat = (lastLine before).length

/-- The spelling of `token` begins behind the characters `before`. -/
structure Token.StartsBehind (token : Token) (before : List Char) : Prop where
  line_eq : token.position.line.toNat = 1 + before.count '\n'
  column_eq : token.position.column.toNat = 1 + (lastLine before).length

theorem lastLine_append_lineEnd (chars : List Char) : lastLine (chars ++ ['\n']) = [] := by
  simp [lastLine]

theorem lastLine_append_of_ne {c : Char} (h : c ≠ '\n') (chars : List Char) :
    lastLine (chars ++ [c]) = lastLine chars ++ [c] := by
  simp [lastLine, h]

theorem length_lastLine_le (chars : List Char) : (lastLine chars).length ≤ chars.length := by
  simpa [lastLine] using (List.takeWhile_sublist (· ≠ '\n') (l := chars.reverse)).length_le

namespace Position

variable {position : Position} {before : List Char}

theorem Counts.after (h : position.Counts before) (hlength : before.length < UInt32.size - 2)
    (c : Char) : (position.after c).Counts (before ++ [c]) := by
  obtain ⟨hline, hcolumn⟩ := h
  simp only [UInt32.size] at hlength
  have hcount : before.count '\n' ≤ before.length := List.count_le_length
  have hlast := length_lastLine_le before
  unfold Position.after
  split
  · rename_i hc
    subst hc
    constructor
    · simp only [nextLine, UInt32.toNat_add, UInt32.reduceToNat, List.count_append,
        List.count_singleton_self]
      omega
    · rw [lastLine_append_lineEnd]
      rfl
  · rename_i hc
    constructor
    · simp [right, hline, hc]
    · simp only [right, UInt32.toNat_add, UInt32.reduceToNat, lastLine_append_of_ne hc,
        List.length_append, List.length_singleton]
      omega

theorem Counts.afterAll {cs : List Char} (h : position.Counts before)
    (hlength : (before ++ cs).length < UInt32.size - 1) :
    (position.afterAll cs).Counts (before ++ cs) := by
  induction cs generalizing position before with
  | nil => simpa using h
  | cons c cs ih =>
      rw [List.append_cons] at hlength ⊢
      have hbefore : before.length < UInt32.size - 2 := by
        simp only [List.length_append, List.length_singleton] at hlength
        omega
      exact ih (h.after hbefore c) hlength

theorem counts_start : start.Counts [] := ⟨rfl, rfl⟩

/-- The token whose first character comes behind `before` is placed on that character. -/
theorem Counts.startsBehind {kind : TokenKind} {text : String} (h : position.Counts before)
    (hlength : before.length < UInt32.size - 1) :
    (Token.mk kind text position.right).StartsBehind before := by
  simp only [UInt32.size] at hlength
  have hlast := length_lastLine_le before
  constructor
  · exact h.line_eq
  · have hcolumn := h.column_eq
    simp only [right, UInt32.toNat_add, UInt32.reduceToNat]
    omega

end Position

/-! ## The tokens of the first calls -/

/-- What the segments hold of the source. -/
def Segment.source (segments : List Segment) : List Char :=
  segments.flatMap fun segment => segment.blanks ++ segment.spelling

theorem Segment.source_cons (segment : Segment) (others : List Segment) :
    source (segment :: others) = segment.blanks ++ segment.spelling ++ source others :=
  List.flatMap_cons

/-- The lexer after `count` calls. -/
def Lexer.afterCalls (lexer : Lexer) : Nat → Lexer
  | 0 => lexer
  | count + 1 => lexer.next.2.afterCalls count

namespace PushBackLexer

open Step

/-- The tokens of the next `count` calls. -/
def nextTokens : Nat → Step (List Token)
  | 0 => return []
  | count + 1 => do
    let token ← next
    let others ← nextTokens count
    return token :: others

/-- Calls that make `tokens` and take one lexer to another. -/
inductive Steps : PushBackLexer → List Token → PushBackLexer → Prop where
  | refl (lexer : PushBackLexer) : Steps lexer [] lexer
  | call {lexer reached behind : PushBackLexer} {token : Token} {tokens : List Token}
    (hnext : next lexer = some (.ok token, reached))
    (hlexer : reached.toLexer = lexer.toLexer.next.2) (hsteps : Steps reached tokens behind) :
    Steps lexer (token :: tokens) behind

namespace Steps

variable {lexer reached behind : PushBackLexer} {tokens others : List Token}

theorem trans (h : Steps lexer tokens reached) (hothers : Steps reached others behind) :
    Steps lexer (tokens ++ others) behind := by
  induction h with
  | refl => exact hothers
  | call hnext hlexer _ ih => exact .call hnext hlexer (ih hothers)

theorem nextTokens_eq (h : Steps lexer tokens behind) :
    nextTokens tokens.length lexer = some (.ok tokens, behind) := by
  induction h with
  | refl => rfl
  | call hnext _ _ ih =>
      rw [List.length_cons, nextTokens, bind_of_ok hnext, bind_of_ok ih]
      rfl

/-- The lexer that looks ahead makes the same calls. -/
theorem toLexer_eq (h : Steps lexer tokens behind) :
    behind.toLexer = lexer.toLexer.afterCalls tokens.length := by
  induction h with
  | refl => rfl
  | call _ hlexer _ ih => rw [ih, hlexer, List.length_cons, Lexer.afterCalls]

theorem of_ended (h : lexer.ended = true) (count : Nat) :
    Steps lexer (List.replicate count (.endAt lexer.position)) lexer := by
  have hnext : next lexer = some (.ok (.endAt lexer.position), lexer) := by
    rw [next, if_pos h]
  have hlexer : lexer.toLexer = lexer.toLexer.next.2 := by
    rw [Lexer.next, if_pos (show lexer.toLexer.ended = true from h)]
  induction count with
  | zero => exact .refl lexer
  | succ count ih => exact .call hnext hlexer ih

end Steps

/-- A lexer in front of `chars`, at a place from which its counters have room. -/
structure At (lexer : PushBackLexer) (position : Position) (chars : List Char) : Prop where
  toLexer_eq : lexer.toLexer = ⟨chars.map .char, position, false⟩
  fits : position.Fits chars.length

namespace At

variable {lexer : PushBackLexer} {position : Position} {chars : List Char}
variable {earlier later : List Segment}

theorem exists_next {token : Token} {behind : Lexer} (h : lexer.At position chars)
    (hnext : (Lexer.mk (chars.map .char) position false).next = (.ok token, behind)) :
    ∃ reached, next lexer = some (.ok token, reached) ∧ reached.toLexer = behind ∧
      reached.toLexer = lexer.toLexer.next.2 ∧
      behind.position.Fits (Reading.ahead behind.readings) := by
  obtain ⟨hremaining, hposition, -⟩ := Lexer.mk.inj h.toLexer_eq
  have hroom : lexer.position.Fits (Reading.ahead lexer.reader.remaining) := by
    simpa [hremaining, hposition] using h.fits
  rw [← h.toLexer_eq] at hnext
  obtain ⟨reached, hresult, rfl, hfits⟩ := next_of_ok hroom hnext
  exact ⟨reached, hresult, rfl, by rw [hnext], hfits⟩

/-- The calls for the earlier segments of a text. -/
theorem exists_steps (h : lexer.At position chars)
    (hsegmentation : Segmentation chars (earlier ++ later)) :
    ∃ rest behind, chars = Segment.source earlier ++ rest ∧ Segmentation rest later ∧
      behind.At (position.afterAll (Segment.source earlier)) rest ∧
      Steps lexer (Segment.tokens position earlier) behind := by
  induction earlier generalizing lexer position chars with
  | nil => exact ⟨chars, lexer, rfl, hsegmentation, h, .refl lexer⟩
  | cons segment earlier ih =>
      cases hsegmentation with
      | cons hblanks hlexeme hrest =>
          obtain ⟨reached, hnext, hreached, hlexer, hfits⟩ :=
            h.exists_next (Lexer.next_of_lexeme hblanks hlexeme)
          obtain ⟨rest, behind, hsource, hlater, hat, hsteps⟩ :=
            ih ⟨hreached, by simpa using hfits⟩ hrest
          refine ⟨rest, behind, ?_, hlater, ?_, .call hnext hlexer hsteps⟩
          · simp [Segment.source, hsource]
          · simpa [Segment.source, Position.afterAll_append] using hat

/-- The calls behind the last segment of a text. -/
theorem exists_steps_end (h : lexer.At position chars) (hsegmentation : Segmentation chars [])
    (count : Nat) :
    ∃ behind, behind.position = position.afterAll chars ∧
      Steps lexer (List.replicate (count + 1) (.endAt (position.afterAll chars))) behind := by
  cases hsegmentation with
  | nil hblanks =>
      obtain ⟨reached, hnext, hreached, hlexer, -⟩ := h.exists_next (Lexer.next_of_blanks hblanks)
      obtain ⟨-, hposition, hended⟩ := Lexer.mk.inj hreached
      refine ⟨reached, hposition, .call hnext hlexer ?_⟩
      rw [← hposition]
      exact .of_ended hended count

end At

end PushBackLexer

namespace Segment

theorem length_tokens (position : Position) (segments : List Segment) :
    (tokens position segments).length = segments.length := by
  induction segments generalizing position with
  | nil => rfl
  | cons segment others ih => simp [tokens, ih]

theorem tokens_append (position : Position) (earlier later : List Segment) :
    tokens position (earlier ++ later) =
      tokens position earlier ++ tokens (position.afterAll (source earlier)) later := by
  induction earlier generalizing position with
  | nil => rfl
  | cons segment earlier ih => simp [tokens, ih, source, Position.afterAll_append]

theorem take_tokens (position : Position) (segments : List Segment) (count : Nat) :
    (tokens position segments).take count = tokens position (segments.take count) := by
  induction segments generalizing position count with
  | nil => simp [tokens]
  | cons segment others ih => cases count <;> simp [tokens, ih]

theorem getElem?_tokens (position : Position) (earlier later : List Segment) (segment : Segment) :
    (tokens position (earlier ++ segment :: later))[earlier.length]? =
      some ⟨segment.kind, segment.text,
        (position.afterAll (source earlier ++ segment.blanks)).right⟩ := by
  rw [tokens_append, List.getElem?_append_right (Nat.le_of_eq (length_tokens _ _)), length_tokens,
    Nat.sub_self, Position.afterAll_append]
  rfl

end Segment

/-- Any number of calls.  Behind the segments all of them make the last token. -/
theorem PushBackLexer.At.exists_steps_count {lexer : PushBackLexer} {position : Position}
    {chars : List Char} {segments : List Segment} (h : lexer.At position chars)
    (hsegmentation : Segmentation chars segments) (count : Nat) :
    ∃ reached behind,
      chars = (if count ≤ segments.length then Segment.source (segments.take count) else chars) ++
        behind ∧
      reached.position = position.afterAll
        (if count ≤ segments.length then Segment.source (segments.take count) else chars) ∧
      Steps lexer ((Segment.tokens position segments).take count ++
        List.replicate (count - segments.length) (.endAt (position.afterAll chars))) reached := by
  by_cases hcount : count ≤ segments.length
  · rw [← List.take_append_drop count segments] at hsegmentation
    obtain ⟨behind, reached, hsource, -, hreached, hsteps⟩ := h.exists_steps hsegmentation
    have hposition := congrArg Lexer.position hreached.toLexer_eq
    rw [if_pos hcount, Nat.sub_eq_zero_of_le hcount, Segment.take_tokens]
    exact ⟨reached, behind, hsource, hposition, by simpa using hsteps⟩
  · obtain ⟨more, rfl⟩ := Nat.exists_eq_add_of_lt (Nat.lt_of_not_le hcount)
    rw [← List.append_nil segments] at hsegmentation
    obtain ⟨blanks, middle, hsource, hblanks, hmiddle, hsteps⟩ := h.exists_steps hsegmentation
    obtain ⟨reached, hposition, hend⟩ := hmiddle.exists_steps_end hblanks more
    rw [← Position.afterAll_append, ← hsource] at hposition hend
    have htake : (Segment.tokens position segments).take (segments.length + more + 1) =
        Segment.tokens position segments :=
      List.take_of_length_le (by rw [Segment.length_tokens]; omega)
    have hsub : segments.length + more + 1 - segments.length = more + 1 := by omega
    rw [if_neg hcount, htake, hsub]
    exact ⟨reached, [], (List.append_nil chars).symm, hposition, hsteps.trans hend⟩

/-- In a text that is short enough for the counters, the position of a token counts what comes
before its spelling, and the position between two calls counts what comes before the place that
they have reached.  No counter of the lexer that reads and gives back leaves its range. -/
theorem tokenize_positions {text : String} (hlength : text.length < UInt32.size - 1) :
    ∃ segments tokens last,
      Segmentation text.toList segments ∧ tokenize text = .ok (tokens ++ [last]) ∧
      tokens.length = segments.length ∧
      (∀ earlier segment later, segments = earlier ++ segment :: later →
        ∃ token behind,
          text.toList = Segment.source earlier ++ segment.blanks ++ (segment.spelling ++ behind) ∧
          tokens[earlier.length]? = some token ∧ token.kind = segment.kind ∧
          token.text = segment.text ∧
          token.StartsBehind (Segment.source earlier ++ segment.blanks)) ∧
      last.kind = .endOfInput ∧ last.position.Counts text.toList ∧
      ∀ count, ∃ reached,
        PushBackLexer.nextTokens count (.ofReadings (Reading.ofString text)) =
            some (.ok (tokens.take count ++ List.replicate (count - tokens.length) last), reached) ∧
          reached.toLexer = (Lexer.ofReadings (Reading.ofString text)).afterCalls count ∧
          reached.position.Counts
            (if count ≤ tokens.length then Segment.source (segments.take count)
              else text.toList) := by
  have hchars : text.toList.length < UInt32.size - 1 := by rwa [String.length_toList]
  obtain ⟨segments, h⟩ := Segmentation.exists_segmentation text.toList
  have hat : (PushBackLexer.ofReadings (Reading.ofString text)).At .start text.toList :=
    ⟨rfl, .start hchars⟩
  have hbound {before rest : List Char} (heq : text.toList = before ++ rest) :
      before.length < UInt32.size - 1 :=
    Nat.lt_of_le_of_lt (by simp [heq]) hchars
  have hcounts {before rest : List Char} (heq : text.toList = before ++ rest) :
      (Position.start.afterAll before).Counts before :=
    Position.counts_start.afterAll (hbound heq)
  refine ⟨segments, Segment.tokens .start segments, .endAt (Position.start.afterAll text.toList),
    h, h.tokens_eq .start, Segment.length_tokens _ _, ?_, rfl, hcounts (List.append_nil _).symm, ?_⟩
  · rintro earlier segment later rfl
    obtain ⟨rest, _, hsource, hrest, -, -⟩ := hat.exists_steps h
    cases hrest with
    | @cons blanks spelling behind kind spelled _ _ _ _ =>
        have heq : text.toList = Segment.source earlier ++ blanks ++ (spelling ++ behind) := by
          rw [hsource, List.append_assoc]
        exact ⟨_, behind, heq, Segment.getElem?_tokens _ _ _ _, rfl, rfl,
          (hcounts heq).startsBehind (hbound heq)⟩
  · intro count
    obtain ⟨reached, behind, heq, hposition, hsteps⟩ := hat.exists_steps_count h count
    have htokens := Segment.length_tokens .start segments
    have hcount : ((Segment.tokens .start segments).take count ++
        List.replicate (count - segments.length)
          (Token.endAt (Position.start.afterAll text.toList))).length = count := by
      simp only [List.length_append, List.length_take, List.length_replicate, htokens]
      omega
    have hnext := hsteps.nextTokens_eq
    have hlexer := hsteps.toLexer_eq
    rw [hcount] at hnext hlexer
    rw [htokens]
    exact ⟨reached, hnext, hlexer, hposition ▸ hcounts heq⟩

/-- A name, a comment, a string over two lines and a sign. -/
theorem tokenize_nameCommentStringSign_positions :
    "a//b\n\"c\n\"!".length < UInt32.size - 1 ∧
      ∃ tokens last, tokenize "a//b\n\"c\n\"!" = .ok (tokens ++ [last]) ∧
        last.position.line.toNat = 3 ∧ last.position.column.toNat = 2 ∧
        ∃ reached,
          PushBackLexer.nextTokens tokens.length
              (.ofReadings (Reading.ofString "a//b\n\"c\n\"!")) =
            some (.ok tokens, reached) := by
  have hlength : "a//b\n\"c\n\"!".length < UInt32.size - 1 := by decide
  obtain ⟨_, tokens, last, -, htokens, -, -, -, hlast, hcalls⟩ := tokenize_positions hlength
  obtain ⟨reached, hreached, -, -⟩ := hcalls tokens.length
  refine ⟨hlength, tokens, last, htokens, hlast.line_eq, hlast.column_eq, reached, ?_⟩
  simpa using hreached

end LineScript
