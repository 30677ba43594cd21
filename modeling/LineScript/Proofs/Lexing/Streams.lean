import LineScript.Proofs.Lexing.Positions
import LineScript.Proofs.Source.Decoding

/-!
# Tokens of a byte stream

A lexeme may end among the characters that have been read, or it may go on until something else
than a character is read.  In the first case nothing behind it matters.  In the second case an
end of input ends it, and a failure takes its place.  So a stream that ends is cut into tokens
like the text that it delivers, and a stream that fails fails at the position behind all of its
characters, whatever was being read there.

Counting back what is pushed back makes no difference to this.  Only the characters in front of the
first failure are counted, so a stream of few enough bytes never takes a counter out of its range.
-/

namespace LineScript

/-- The readings do not go on with a character. -/
def HaveEnded (readings : List Reading) : Prop :=
  ∀ c, readings.head? ≠ some (.char c)

theorem haveEnded_failed (failure : ReadFailure) (rest : List Reading) :
    HaveEnded (.failed failure :: rest) := by
  simp [HaveEnded]

theorem haveEnded_endOfInput (rest : List Reading) : HaveEnded (.endOfInput :: rest) := by
  simp [HaveEnded]

theorem haveEnded_replicate (count : Nat) :
    HaveEnded (List.replicate count .endOfInput) := by
  cases count <;> simp [HaveEnded, List.replicate_succ]

namespace Run

/-- What a run meets where the characters have ended. -/
def atEnd : List Reading → Run
  | [] => empty []
  | .endOfInput :: rest => empty rest
  | .failed failure :: rest => ⟨[], some failure, rest⟩
  | .char c :: rest => empty (.char c :: rest)

theorem atEnd_replicate (count : Nat) :
    atEnd (List.replicate count .endOfInput) = empty (List.replicate (count - 1) .endOfInput) := by
  cases count <;> rfl

/-- Either the run ends among the characters, and nothing behind them matters, or it takes all of
them and goes on to what ends them. -/
def EndsIn (chars : List Char) (run : List Reading → Run) : Prop :=
  (∃ taken rest, chars = taken ++ rest ∧
    ∀ tail, run (chars.map .char ++ tail) = ⟨taken, none, rest.map .char ++ tail⟩) ∨
  ∀ tail, HaveEnded tail → run (chars.map .char ++ tail) = { atEnd tail with taken := chars }

variable {run more : List Reading → Run} {chars : List Char} {c : Char}

theorem endsIn_empty (chars : List Char) : EndsIn chars empty :=
  .inl ⟨[], chars, rfl, fun _ => rfl⟩

/-- Where there is no character the run ends. -/
theorem endsIn_nil (hnil : run [] = empty [])
    (hend : ∀ rest, run (.endOfInput :: rest) = empty rest)
    (hfailed : ∀ failure rest, run (.failed failure :: rest) = ⟨[], some failure, rest⟩) :
    EndsIn [] run := by
  refine .inr fun tail htail => ?_
  cases tail with
  | nil => exact hnil
  | cons reading rest =>
      cases reading with
      | char c => exact absurd rfl (htail c)
      | endOfInput => exact hend rest
      | failed failure => exact hfailed failure rest

/-- The run does not take the first character. -/
theorem endsIn_of_leave
    (h : ∀ readings, run (.char c :: readings) = empty (.char c :: readings)) :
    EndsIn (c :: chars) run :=
  .inl ⟨[], c :: chars, rfl, fun _ => h _⟩

/-- The run takes the first character and nothing else. -/
theorem endsIn_of_take (h : ∀ readings, run (.char c :: readings) = ⟨[c], none, readings⟩) :
    EndsIn (c :: chars) run :=
  .inl ⟨[c], chars, rfl, fun _ => h _⟩

/-- The run takes the first character and goes on. -/
theorem EndsIn.cons (h : EndsIn chars more)
    (hrun : ∀ readings, run (.char c :: readings) = (more readings).cons c) :
    EndsIn (c :: chars) run := by
  rcases h with ⟨taken, rest, rfl, htaken⟩ | hall
  · refine .inl ⟨c :: taken, rest, rfl, fun tail => ?_⟩
    rw [List.map_cons, List.cons_append, hrun, htaken]
    rfl
  · refine .inr fun tail htail => ?_
    rw [List.map_cons, List.cons_append, hrun, hall tail htail]
    rfl

theorem endsIn_takeWhile (accept : Char → Bool) (chars : List Char) :
    EndsIn chars (takeWhile accept) := by
  induction chars with
  | nil => exact endsIn_nil rfl (fun _ => rfl) fun _ _ => rfl
  | cons c others ih =>
      by_cases hc : accept c = true
      · exact ih.cons fun readings => by rw [takeWhile, if_pos hc]
      · exact endsIn_of_leave fun readings => by rw [takeWhile, if_neg hc]

theorem endsIn_through (closing : Char) (chars : List Char) :
    EndsIn chars (through closing) := by
  induction chars with
  | nil => exact endsIn_nil rfl (fun _ => rfl) fun _ _ => rfl
  | cons c others ih =>
      by_cases hc : c = closing
      · exact endsIn_of_take fun readings => by rw [through, if_pos hc]
      · exact ih.cons fun readings => by rw [through, if_neg hc]

theorem endsIn_optional (second : Char) (h : ∀ chars, EndsIn chars more) (chars : List Char) :
    EndsIn chars (optional second more) := by
  cases chars with
  | nil => exact endsIn_nil rfl (fun _ => rfl) fun _ _ => rfl
  | cons c others =>
      by_cases hc : c = second
      · exact (h others).cons fun readings => by rw [optional, if_pos hc]
      · exact endsIn_of_leave fun readings => by rw [optional, if_neg hc]

end Run

theorem Opening.endsIn_run (opening : Opening) (chars : List Char) :
    Run.EndsIn chars opening.run := by
  cases opening with
  | slash => exact Run.endsIn_optional '/' (Run.endsIn_through '\n') chars
  | pair second => exact Run.endsIn_optional second Run.endsIn_empty chars
  | directive | digits | word => exact Run.endsIn_takeWhile _ chars
  | quote => exact Run.endsIn_through '"' chars
  | sign | lineEnd | blank | unknown => exact Run.endsIn_empty chars

/-! ## A lexeme and what comes behind the characters -/

/-- A lexeme ends among the characters, or it takes all of them and ends where they do. -/
theorem Opening.Takes.run_append {first : Char} {taken rest : List Char} {kind : TokenKind}
    {text : String} (h : Takes first taken rest kind text) :
    (∀ tail, (ofChar first).run ((taken ++ rest).map .char ++ tail) =
      ⟨taken, none, rest.map .char ++ tail⟩) ∨
    rest = [] ∧ ∀ tail, HaveEnded tail →
      (ofChar first).run (taken.map .char ++ tail) = { Run.atEnd tail with taken := taken } := by
  have hrun := h.run_eq
  rcases (ofChar first).endsIn_run (taken ++ rest) with ⟨before, behind, hsplit, hbefore⟩ | hall
  · have hplain := hbefore []
    rw [List.append_nil, hrun] at hplain
    obtain ⟨rfl, -, -⟩ := Run.mk.inj hplain
    obtain rfl := List.append_cancel_left hsplit
    exact .inl hbefore
  · have hplain := hall [] (by simp [HaveEnded])
    rw [List.append_nil, hrun] at hplain
    obtain ⟨htaken, -, -⟩ := Run.mk.inj hplain
    obtain rfl : rest = [] := List.self_eq_append_right.mp htaken
    rw [List.append_nil] at hall
    exact .inr ⟨rfl, hall⟩

namespace Lexer

variable {position : Position} {blanks spelling rest chars : List Char} {kind : TokenKind}
variable {text : String} {segments : List Segment} {tail : List Reading}

/-- One call reads the blanks and the lexeme of a segment, whatever ends its run. -/
theorem next_of_run {first : Char} {taken : List Char} {left : List Reading}
    (hblanks : ∀ c ∈ blanks, IsSeparator c) (htakes : Opening.Takes first taken rest kind text)
    (hrun : (Opening.ofChar first).run tail = ⟨taken, none, left⟩) (position : Position) :
    (Lexer.mk (blanks.map .char ++ .char first :: tail) position false).next =
      (.ok ⟨kind, text, (position.afterAll blanks).right⟩,
        ⟨left, position.afterAll (blanks ++ first :: taken), false⟩) := by
  rw [next, if_neg (by simp), scan_of_isSeparator hblanks, scan_of_ne_blank htakes.ne_blank]
  simp only [hrun, htakes.kind_eq, htakes.text_eq, Position.afterAll_append,
    Position.afterAll_cons]

/-- One call reads the blanks and the lexeme of a segment.  If the characters end with the lexeme,
so does the call, and a failure behind them is found by it. -/
theorem next_append_of_lexeme (position : Position) (hblanks : ∀ c ∈ blanks, IsSeparator c)
    (hlexeme : Lexeme spelling rest kind text) (htail : HaveEnded tail) :
    (Lexer.mk ((blanks ++ (spelling ++ rest)).map .char ++ tail) position false).next =
        (.ok ⟨kind, text, (position.afterAll blanks).right⟩,
          ⟨rest.map .char ++ tail, position.afterAll (blanks ++ spelling), false⟩) ∨
      rest = [] ∧
        (Lexer.mk ((blanks ++ spelling).map .char ++ tail) position false).next =
          (match (Run.atEnd tail).failure with
            | some failure =>
              .error ⟨.unreadableSource failure.message, position.afterAll (blanks ++ spelling)⟩
            | none => .ok ⟨kind, text, (position.afterAll blanks).right⟩,
            ⟨(Run.atEnd tail).rest, position.afterAll (blanks ++ spelling), false⟩) := by
  obtain ⟨first, taken, rfl, htakes⟩ := hlexeme.exists_takes
  have hne := htakes.ne_blank
  rcases htakes.run_append with hrun | ⟨rfl, hrun⟩
  · left
    rw [List.map_append, List.append_assoc]
    exact next_of_run hblanks htakes (hrun tail) position
  · right
    refine ⟨rfl, ?_⟩
    rw [next, if_neg (by simp), List.map_append, List.append_assoc, scan_of_isSeparator hblanks,
      List.map_cons, List.cons_append, scan_of_ne_blank hne]
    cases hfailure : (Run.atEnd tail).failure <;>
      simp only [hrun tail htail, hfailure, htakes.kind_eq, htakes.text_eq,
        Position.afterAll_append, Position.afterAll_cons]

/-- In front of an end of input the call makes the token.  A lexeme that goes on to the end uses up
one reading of it. -/
theorem exists_next_replicate (hblanks : ∀ c ∈ blanks, IsSeparator c)
    (hlexeme : Lexeme spelling rest kind text) (position : Position) (count : Nat) :
    ∃ behind,
      (Lexer.mk ((blanks ++ (spelling ++ rest)).map .char ++
          List.replicate count .endOfInput) position false).next =
        (.ok ⟨kind, text, (position.afterAll blanks).right⟩,
          ⟨rest.map .char ++ List.replicate behind .endOfInput,
            position.afterAll (blanks ++ spelling), false⟩) := by
  rcases next_append_of_lexeme position hblanks hlexeme (haveEnded_replicate count) with
    hnext | ⟨rfl, hnext⟩
  · exact ⟨count, hnext⟩
  · rw [Run.atEnd_replicate] at hnext
    rw [List.append_nil]
    exact ⟨count - 1, hnext⟩

theorem tokens_of_next_error {lexer behind : Lexer} {diagnostic : Diagnostic}
    (h : lexer.next = (.error diagnostic, behind)) : lexer.tokens = .error diagnostic := by
  rw [tokens]
  split <;> simp_all

end Lexer

namespace Segmentation

variable {chars : List Char} {segments : List Segment}

/-- A text is cut into the same tokens if the end of the input is read more than once. -/
theorem tokens_replicate_endOfInput (h : Segmentation chars segments) (position : Position)
    (count : Nat) :
    (Lexer.mk (chars.map .char ++ List.replicate count .endOfInput) position false).tokens =
      .ok (Segment.tokens position segments ++ [.endAt (position.afterAll chars)]) := by
  induction h generalizing position count with
  | @nil blanks hblanks =>
      have hscan : Lexer.scan position (blanks.map .char ++ List.replicate count .endOfInput) =
          (.ok (.endAt (position.afterAll blanks)),
            ⟨List.replicate (count - 1) .endOfInput, position.afterAll blanks, true⟩) := by
        rw [Lexer.scan_of_isSeparator hblanks]
        cases count <;> rfl
      exact Lexer.tokens_of_next_endAt hscan
  | @cons blanks spelling rest kind text segments hblanks hlexeme _ ih =>
      obtain ⟨behind, hnext⟩ := Lexer.exists_next_replicate hblanks hlexeme position count
      rw [Lexer.tokens_of_next hnext hlexeme.kind_ne_endOfInput, ih]
      simp [Segment.tokens, Except.map, Position.afterAll_append]

/-- A stream that fails behind the characters of a text leaves no tokens, but a diagnostic at the
position behind the text. -/
theorem tokens_failed (h : Segmentation chars segments) (position : Position)
    (failure : ReadFailure) (tail : List Reading) :
    (Lexer.mk (chars.map .char ++ .failed failure :: tail) position false).tokens =
      .error ⟨.unreadableSource failure.message, position.afterAll chars⟩ := by
  induction h generalizing position with
  | @nil blanks hblanks =>
      have hscan : Lexer.scan position (blanks.map .char ++ .failed failure :: tail) = _ :=
        Lexer.scan_of_isSeparator hblanks _
      exact Lexer.tokens_of_next_error hscan
  | @cons blanks spelling rest kind text segments hblanks hlexeme _ ih =>
      rcases Lexer.next_append_of_lexeme position hblanks hlexeme
        (haveEnded_failed failure tail) with hnext | ⟨rfl, hnext⟩
      · rw [Lexer.tokens_of_next hnext hlexeme.kind_ne_endOfInput, ih, ← Position.afterAll_append,
          List.append_assoc]
        rfl
      · rw [List.append_nil]
        exact Lexer.tokens_of_next_error hnext

end Segmentation

/-! ## Streams of bytes -/

variable {reads : List Read} {text : List Char}

/-- A stream that delivers a text and ends makes the tokens of the text. -/
theorem exists_tokenizeReads_of_isIdle (h : Delivers reads (encode text)) {ends : List Read}
    (hends : ∀ read ∈ ends, read.IsIdle) :
    ∃ tokens, tokenizeReads (reads ++ ends) = .ok tokens ∧
      tokenizeReadings (text.map .char) = .ok tokens := by
  obtain ⟨count, hreadings⟩ := h.exists_ofReads_of_isIdle hends
  obtain ⟨segments, hsegments⟩ := Segmentation.exists_segmentation text
  refine ⟨_, ?_, hsegments.tokens_eq .start⟩
  rw [tokenizeReads, hreadings]
  exact hsegments.tokens_replicate_endOfInput .start count

/-- A stream whose readings fail behind a text leaves a diagnostic at the position behind it. -/
theorem tokenizeReads_of_failed {reads : List Read} {failure : ReadFailure} {tail : List Reading}
    (h : Reading.ofReads reads = text.map .char ++ .failed failure :: tail) :
    tokenizeReads reads =
      .error ⟨.unreadableSource failure.message, Position.start.afterAll text⟩ := by
  obtain ⟨segments, hsegments⟩ := Segmentation.exists_segmentation text
  rw [tokenizeReads, h]
  exact hsegments.tokens_failed .start failure tail

/-- A text is no longer than its encoding, whatever comes behind it. -/
theorem length_lt_of_encode_append {rest : List UInt8} {bound : Nat}
    (h : (encode text ++ rest).length < bound) : text.length < bound := by
  have hle := length_le_length_encode text
  rw [List.length_append] at h
  omega

/-! ## Pushing back -/

namespace PushBackLexer

/-- The tokens of a byte stream, if the counters stay in their range. -/
def tokensOfReads (reads : List Read) : Option (Except Diagnostic (List Token)) :=
  (tokens (.ofReadings (Reading.ofReads reads))).map Prod.fst

/-- If the characters in front of the first failure are few enough for the counters, it does not
matter whether the lexer looks ahead or pushes back. -/
theorem tokensOfReads_of_ahead_lt {reads : List Read}
    (h : Reading.ahead (Reading.ofReads reads) < UInt32.size - 1) :
    tokensOfReads reads = some (tokenizeReads reads) := by
  obtain ⟨reached, htokens⟩ := exists_tokens_ofReadings h
  rw [tokensOfReads, htokens]
  rfl

theorem tokensOfReads_eq {reads : List Read} {tail : List Reading}
    (h : Reading.ofReads reads = text.map .char ++ tail) (htail : Reading.ahead tail = 0)
    (hlength : text.length < UInt32.size - 1) :
    tokensOfReads reads = some (tokenizeReads reads) :=
  tokensOfReads_of_ahead_lt (by rwa [h, Reading.ahead_append, htail])

theorem tokensOfReads_of_isIdle {content : List UInt8} (h : Delivers reads content)
    (hlength : content.length < UInt32.size - 1) {ends : List Read}
    (hends : ∀ read ∈ ends, read.IsIdle) :
    tokensOfReads (reads ++ ends) = some (tokenizeReads (reads ++ ends)) := by
  obtain ⟨text, rest, rfl, hrest⟩ := exists_encode_append content
  have hshort := length_lt_of_encode_append hlength
  by_cases hne : rest = []
  · subst hne
    rw [List.append_nil] at h
    obtain ⟨count, hreadings⟩ := h.exists_ofReads_of_isIdle hends
    exact tokensOfReads_eq hreadings (Reading.ahead_replicate_endOfInput count) hshort
  · obtain ⟨more, hreadings⟩ := h.exists_ofReads_of_isMalformed hne hrest hends
    exact tokensOfReads_eq hreadings rfl hshort

end PushBackLexer

/-! ## What a stream makes -/

/-- However the bytes of a stream are cut, and however often it is interrupted: if they encode a
text, its tokens are made.  If not, the stream is refused at the position behind the longest text
that its bytes begin with.  A stream that fails behind the encoding of a text is refused with the
reason of the failure, at the position behind the text.  A lexer that reads one character too many
and pushes it back makes the same of each of these streams. -/
theorem tokenizeReads_delivered {reads : List Read} {content : List UInt8}
    (h : Delivers reads content) (hlength : content.length < UInt32.size - 1) :
    (∀ ends : List Read, (∀ read ∈ ends, read.IsIdle) →
      PushBackLexer.tokensOfReads (reads ++ ends) = some (tokenizeReads (reads ++ ends)) ∧
      (∀ text, String.fromUTF8? content.toByteArray = some text →
        ∃ tokens, tokenizeReads (reads ++ ends) = .ok tokens ∧ tokenize text = .ok tokens) ∧
      (String.fromUTF8? content.toByteArray = none →
        ∃ text diagnostic, IsLongestText text content ∧
          tokenizeReads (reads ++ ends) = .error diagnostic ∧
          diagnostic.cause = .unreadableSource "source is not valid UTF-8" ∧
          diagnostic.cause.isFatal ∧ diagnostic.position.Counts text)) ∧
    ∀ text, String.fromUTF8? content.toByteArray = some text → ∀ reason more,
      PushBackLexer.tokensOfReads (reads ++ .failed reason :: more) =
        some (tokenizeReads (reads ++ .failed reason :: more)) ∧
      ∃ diagnostic,
        tokenizeReads (reads ++ .failed reason :: more) = .error diagnostic ∧
        diagnostic.cause = .unreadableSource reason ∧
        diagnostic.cause.isFatal ∧ diagnostic.position.Counts text.toList := by
  refine ⟨fun ends hends => ⟨PushBackLexer.tokensOfReads_of_isIdle h hlength hends,
    fun text htext => ?_, fun hnone => ?_⟩, fun text htext reason more => ?_⟩
  · rw [eq_encode_of_fromUTF8? htext] at h
    exact exists_tokenizeReads_of_isIdle h hends
  · obtain ⟨text, rest, rfl, hrest⟩ := exists_encode_append content
    have hne : rest ≠ [] := by
      rintro rfl
      rw [List.append_nil] at hnone
      exact ne_encode_of_fromUTF8?_eq_none hnone text rfl
    obtain ⟨behind, hreadings⟩ := h.exists_ofReads_of_isMalformed hne hrest hends
    exact ⟨text, _, hrest.isLongestText text, tokenizeReads_of_failed hreadings, rfl, rfl,
      Position.counts_start.afterAll (length_lt_of_encode_append hlength)⟩
  · rw [eq_encode_of_fromUTF8? htext] at h hlength
    have hshort := Nat.lt_of_le_of_lt (length_le_length_encode text.toList) hlength
    obtain ⟨behind, hreadings⟩ := h.exists_ofReads_failed reason more
    exact ⟨PushBackLexer.tokensOfReads_eq hreadings rfl hshort, _,
      tokenizeReads_of_failed hreadings, rfl, rfl, Position.counts_start.afterAll hshort⟩

/-- A letter whose two bytes come in two reads with an interruption between them, and a sign. -/
def cutLetter : List Read :=
  [.bytes [0xC3], .interrupted, .bytes [0xA9, 0x2B]]

/-- A sign, and a byte that announces another one but is followed by a parenthesis. -/
def brokenLetter : List Read :=
  [.bytes [0x2B, 0xC3], .bytes [0x28]]

theorem tokenizeReads_delivered_letters :
    Delivers cutLetter [0xC3, 0xA9, 0x2B] ∧ Delivers brokenLetter [0x2B, 0xC3, 0x28] ∧
      (∃ tokens, PushBackLexer.tokensOfReads (cutLetter ++ [.bytes []]) = some (.ok tokens) ∧
        tokenize "é+" = .ok tokens) ∧
      (∃ diagnostic,
        PushBackLexer.tokensOfReads (cutLetter ++ [.failed "disk on fire"]) =
          some (.error diagnostic) ∧
        diagnostic.cause = .unreadableSource "disk on fire" ∧
        diagnostic.position.Counts ['é', '+']) ∧
      ∃ text diagnostic, IsLongestText text [0x2B, 0xC3, 0x28] ∧
        PushBackLexer.tokensOfReads (brokenLetter ++ []) = some (.error diagnostic) ∧
        diagnostic.position.Counts text := by
  have hcut : Delivers cutLetter [0xC3, 0xA9, 0x2B] :=
    .bytes 0xC3 [] (.interrupted (.bytes 0xA9 [0x2B] .nil))
  have hbroken : Delivers brokenLetter [0x2B, 0xC3, 0x28] :=
    .bytes 0x2B [0xC3] (.bytes 0x28 [] .nil)
  have htext : String.fromUTF8? [0xC3, 0xA9, 0x2B].toByteArray = some "é+" := by rfl
  have hnone : String.fromUTF8? [0x2B, 0xC3, 0x28].toByteArray = none := by rfl
  obtain ⟨hends, hfails⟩ := tokenizeReads_delivered hcut (by decide)
  obtain ⟨hsame, hmakes, -⟩ := hends [.bytes []] (by decide)
  obtain ⟨tokens, hok, htokens⟩ := hmakes "é+" htext
  obtain ⟨hsameFailed, diagnostic, hfailed, hcause, -, hposition⟩ :=
    hfails "é+" htext "disk on fire" []
  obtain ⟨hsameBroken, -, hrefuses⟩ :=
    (tokenizeReads_delivered hbroken (by decide)).1 [] (by simp)
  obtain ⟨text, other, hlongest, herror, -, -, hcounts⟩ := hrefuses hnone
  exact ⟨hcut, hbroken, ⟨tokens, hok ▸ hsame, htokens⟩,
    ⟨diagnostic, hfailed ▸ hsameFailed, hcause, hposition⟩, text, other, hlongest,
    herror ▸ hsameBroken, hcounts⟩

end LineScript
