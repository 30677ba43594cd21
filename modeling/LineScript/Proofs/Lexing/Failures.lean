import LineScript.Proofs.Lexing.Relocation
import LineScript.Proofs.Lexing.Streams

/-!
# Going on behind a failure

A failure to read a source ends the call that meets it, and the lexeme that was being read is
lost.  What the call leaves behind is a lexer in front of the next reading: no character is pushed
back, no end of the source is remembered, and only the position tells that there was something in
front of the failure.  So the calls behind a failure are those of a lexer that begins there, and
this holds again at the next failure.
-/

namespace LineScript

namespace PushBackLexer

/-- The results of the next `count` calls, failures among them, and the lexer behind them. -/
def results : Nat → PushBackLexer →
    Option (List (Except Diagnostic Token) × PushBackLexer)
  | 0, lexer => some ([], lexer)
  | count + 1, lexer =>
    match next lexer with
    | none => none
    | some (result, reached) =>
      (results count reached).map fun (others, behind) => (result :: others, behind)

/-- If there is room for all readings, no failure keeps the lexer that pushes back from doing what
the lexer that looks ahead does. -/
theorem exists_results {lexer : PushBackLexer} (hroom : lexer.toLexer.HasRoom) (count : Nat) :
    ∃ reached, results count lexer = some (lexer.toLexer.results count, reached) ∧
      reached.toLexer = lexer.toLexer.afterCalls count := by
  induction count generalizing lexer with
  | zero => exact ⟨lexer, rfl, rfl⟩
  | succ count ih =>
      have hfits : lexer.position.Fits (Reading.ahead lexer.reader.remaining) :=
        hroom.mono (Reading.ahead_le_characters _)
      obtain ⟨⟨reached, hnext, hreached⟩, -⟩ := next_agrees hfits
      have hleft : reached.toLexer.HasRoom := hreached ▸ hroom.next
      obtain ⟨behind, hresults, hbehind⟩ := ih hleft
      refine ⟨behind, ?_, ?_⟩
      · rw [results, hnext]
        simp only [hresults, hreached, Option.map_some, Lexer.results]
      · rw [hbehind, hreached, Lexer.afterCalls]

end PushBackLexer

/-- In `count` calls at the beginning of the readings both lexers, the one that looks ahead and the
one that pushes back, give these results and come to this state. -/
structure CallsGive (readings : List Reading) (count : Nat)
    (results : List (Except Diagnostic Token)) (behind : Lexer) : Prop where
  results_eq : (Lexer.ofReadings readings).results count = results
  afterCalls_eq : (Lexer.ofReadings readings).afterCalls count = behind
  exists_pushBack : ∃ reached,
    PushBackLexer.results count (.ofReadings readings) = some (results, reached) ∧
      reached.toLexer = behind

/-- If there is room for all readings, it is enough to know this of the lexer that looks ahead. -/
theorem callsGive {readings : List Reading} {count : Nat}
    {results : List (Except Diagnostic Token)} {behind : Lexer}
    (hlength : Reading.characters readings < UInt32.size - 1)
    (hresults : (Lexer.ofReadings readings).results count = results)
    (hafter : (Lexer.ofReadings readings).afterCalls count = behind) :
    CallsGive readings count results behind := by
  have hroom : (PushBackLexer.ofReadings readings).toLexer.HasRoom := Position.Fits.start hlength
  obtain ⟨reached, hpushBack, hreached⟩ := PushBackLexer.exists_results hroom count
  exact ⟨hresults, hafter, reached, hresults ▸ hpushBack, hreached.trans hafter⟩

/-! ## The calls up to a failure -/

theorem Lexer.results_of_next {lexer behind : Lexer} {result : Except Diagnostic Token}
    (h : lexer.next = (result, behind)) (count : Nat) :
    lexer.results (count + 1) = result :: behind.results count ∧
      lexer.afterCalls (count + 1) = behind.afterCalls count := by
  rw [results, afterCalls, h]
  exact ⟨rfl, rfl⟩

/-- The calls up to a failure behind a text give its tokens, but for a lexeme that is lost because
it goes on to the failure. -/
theorem Segmentation.exists_results_failed {chars : List Char} {segments : List Segment}
    (h : Segmentation chars segments) (position : Position) (failure : ReadFailure)
    (tail : List Reading) :
    ∃ kept lost, segments = kept ++ lost ∧ lost.length ≤ 1 ∧
      (Lexer.mk (chars.map .char ++ .failed failure :: tail) position false).results
          (kept.length + 1) =
        (Segment.tokens position kept).map .ok ++
          [.error ⟨.unreadableSource failure.message, position.afterAll chars⟩] ∧
      (Lexer.mk (chars.map .char ++ .failed failure :: tail) position false).afterCalls
          (kept.length + 1) = ⟨tail, position.afterAll chars, false⟩ := by
  induction h generalizing position with
  | @nil blanks hblanks =>
      have hnext : (Lexer.mk (blanks.map .char ++ .failed failure :: tail) position false).next =
          _ := Lexer.scan_of_isSeparator hblanks _
      exact ⟨[], [], rfl, Nat.zero_le _, Lexer.results_of_next hnext 0⟩
  | @cons blanks spelling rest kind text segments hblanks hlexeme hrest ih =>
      rcases Lexer.next_append_of_lexeme position hblanks hlexeme
        (haveEnded_failed failure tail) with hnext | ⟨rfl, hnext⟩
      · obtain ⟨kept, lost, rfl, hlost, hresults, hafter⟩ :=
          ih (position.afterAll (blanks ++ spelling))
        obtain ⟨hfirst, hreached⟩ := Lexer.results_of_next hnext (kept.length + 1)
        refine ⟨⟨blanks, spelling, kind, text⟩ :: kept, lost, rfl, hlost, ?_, ?_⟩
        · rw [List.length_cons, hfirst, hresults]
          simp [Segment.tokens, Position.afterAll_append]
        · rw [List.length_cons, hreached, hafter]
          simp [Position.afterAll_append]
      · obtain rfl := hrest.eq_nil
        rw [List.append_nil]
        exact ⟨[], [⟨blanks, spelling, kind, text⟩], rfl, Nat.le_refl 1,
          Lexer.results_of_next hnext 0⟩

/-! ## The calls behind it -/

/-- Where a stream fails behind a text, the calls give the tokens of the text, without the lexeme
that goes on to the failure if there is one, and then a failure at the position behind the text.
From there both lexers go on like a lexer at the beginning of what is left, whatever is left and
however often it fails again: no character of the text comes back, nothing behind the failure is
left out, and no end of the source is remembered.  The positions are counted on from the one that
was reached. -/
theorem exists_calls_behind_failure {text : List Char} {left : List Reading}
    (failure : ReadFailure)
    (hlength : text.length + Reading.characters left < UInt32.size - 1) :
    ∃ (tokens lost : List Token) (last : Token) (diagnostic : Diagnostic),
      tokenizeReadings (text.map .char) = .ok (tokens ++ lost ++ [last]) ∧
      lost.length ≤ 1 ∧ last.kind = .endOfInput ∧
      diagnostic.cause = .unreadableSource failure.message ∧ diagnostic.position.Counts text ∧
      CallsGive (text.map .char ++ .failed failure :: left) (tokens.length + 1)
        (tokens.map .ok ++ [.error diagnostic]) ⟨left, diagnostic.position, false⟩ ∧
      ∀ count, ∃ fresh reached moved behind,
        CallsGive left count fresh reached ∧
        CallsGive (text.map .char ++ .failed failure :: left) (tokens.length + 1 + count)
          (tokens.map .ok ++ [.error diagnostic] ++ moved) behind ∧
        List.Forall₂ (Lexer.ResultCountsOn diagnostic.position) fresh moved ∧
        Lexer.CountsOn diagnostic.position reached behind := by
  obtain ⟨segments, hsegments⟩ := Segmentation.exists_segmentation text
  obtain ⟨kept, lost, rfl, hlost, hresults, hafter⟩ :=
    hsegments.exists_results_failed .start failure left
  have htokens := Segment.length_tokens .start kept
  rw [← htokens] at hresults hafter
  have hall : Reading.characters (text.map .char ++ .failed failure :: left) < UInt32.size - 1 := by
    rwa [Reading.characters_append, Reading.characters_map_char]
  have hshort : text.length < UInt32.size - 1 := by omega
  have hleft : Reading.characters left < UInt32.size - 1 := by omega
  have hcounts : (Position.start.afterAll text).Counts text :=
    Position.counts_start.afterAll hshort
  have hroom : (Lexer.mk left (Position.start.afterAll text) false).HasRoom :=
    (Position.Fits.start hlength).afterAll
  have hbegin : Lexer.CountsOn (Position.start.afterAll text) (.ofReadings left)
      ⟨left, Position.start.afterAll text, false⟩ :=
    ⟨rfl, rfl, Position.countsOn_start (by rw [hcounts.line_eq]; omega)⟩
  refine ⟨Segment.tokens .start kept,
    Segment.tokens (Position.start.afterAll (Segment.source kept)) lost,
    .endAt (Position.start.afterAll text),
    ⟨.unreadableSource failure.message, Position.start.afterAll text⟩, ?_, ?_, rfl, rfl, hcounts,
    callsGive hall hresults hafter, fun count => ?_⟩
  · rw [← Segment.tokens_append]
    exact hsegments.tokens_eq .start
  · rwa [Segment.length_tokens]
  · obtain ⟨hmoved, hbehind⟩ := hbegin.results hroom count
    exact ⟨_, _, _, _, callsGive hleft rfl rfl,
      callsGive hall (Lexer.results_add_of_eq hresults hafter count)
        (Lexer.afterCalls_add_of_eq hafter count), hmoved, hbehind⟩

/-- A sign behind a string that breaks off on its second line, and another failure behind the
sign. -/
def brokenString : List Reading :=
  ['"', 'a', '\n', 'b'].map .char ++
    .failed (.device "disk on fire") :: [.char '+', .failed .notUtf8]

theorem exists_calls_behind_brokenString :
    ['"', 'a', '\n', 'b'].length + Reading.characters [.char '+', .failed .notUtf8] <
        UInt32.size - 1 ∧
      ∃ (tokens : List Token) (diagnostic : Diagnostic),
        diagnostic.cause = .unreadableSource "disk on fire" ∧
        diagnostic.position.Counts ['"', 'a', '\n', 'b'] ∧
        CallsGive brokenString (tokens.length + 1) (tokens.map .ok ++ [.error diagnostic])
          ⟨[.char '+', .failed .notUtf8], diagnostic.position, false⟩ ∧
        ∃ fresh reached moved behind,
          CallsGive [.char '+', .failed .notUtf8] 2 fresh reached ∧
          CallsGive brokenString (tokens.length + 1 + 2)
            (tokens.map .ok ++ [.error diagnostic] ++ moved) behind ∧
          List.Forall₂ (Lexer.ResultCountsOn diagnostic.position) fresh moved := by
  have hlength : ['"', 'a', '\n', 'b'].length +
      Reading.characters [.char '+', .failed .notUtf8] < UInt32.size - 1 := by decide
  obtain ⟨tokens, -, -, diagnostic, -, -, -, hcause, hposition, hcalls, hbehind⟩ :=
    exists_calls_behind_failure (.device "disk on fire") hlength
  obtain ⟨fresh, reached, moved, behind, hfresh, hmoved, hsame, -⟩ := hbehind 2
  exact ⟨hlength, tokens, diagnostic, hcause, hposition, hcalls, fresh, reached, moved, behind,
    hfresh, hmoved, hsame⟩

end LineScript
