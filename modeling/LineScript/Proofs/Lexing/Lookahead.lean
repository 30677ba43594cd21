import LineScript.Proofs.Lexing.Lexeme
import LineScript.Proofs.Lexing.PushBack

/-!
# Looking ahead and pushing back

From the same source the lexer with push-back makes the same tokens and reaches the same
positions as the lexer that looks ahead.  It counts every character that it reads and counts
back the one it gives back, so it has counted the characters of its run and no others.  Its
counters stay in their range as long as the source, up to its first failure, is short enough for
them.
-/

namespace LineScript

/-! ## Room in the counters -/

namespace Reading

/-- How many characters can be read before the readings fail. -/
def ahead : List Reading → Nat
  | [] => 0
  | .char _ :: rest => ahead rest + 1
  | .endOfInput :: rest => ahead rest
  | .failed _ :: _ => 0

theorem ahead_append (chars : List Char) (rest : List Reading) :
    ahead (chars.map .char ++ rest) = chars.length + ahead rest := by
  induction chars with
  | nil => simp
  | cons c chars ih =>
      rw [List.map_cons, List.cons_append, ahead, ih, List.length_cons]
      omega

@[simp] theorem ahead_map_char (chars : List Char) : ahead (chars.map .char) = chars.length := by
  have happend := ahead_append chars []
  rwa [List.append_nil] at happend

theorem ahead_replicate_endOfInput (count : Nat) :
    ahead (List.replicate count .endOfInput) = 0 := by
  induction count with
  | zero => rfl
  | succ count ih => exact ih

end Reading

namespace Counter

theorem increment?_eq_some {counter : UInt32} (h : counter.toNat + 1 < UInt32.size) :
    increment? counter = some (counter + 1) :=
  if_pos h

/-- What was counted can be counted back. -/
theorem decrement?_add_one {counter : UInt32} (h : counter.toNat + 1 < UInt32.size) :
    decrement? (counter + 1) = some counter := by
  have hne : counter + 1 ≠ 0 := by
    intro hzero
    have hnat := congrArg UInt32.toNat hzero
    rw [UInt32.toNat_add] at hnat
    simp only [UInt32.size, UInt32.reduceToNat] at h hnat
    omega
  simp [decrement?, hne]

end Counter

/-- The counters of a position can take `count` more characters. -/
structure Position.Fits (position : Position) (count : Nat) : Prop where
  line_lt : position.line.toNat + count < UInt32.size
  column_lt : position.column.toNat + count < UInt32.size

namespace Position.Fits

variable {position : Position} {count fewer : Nat}

theorem mono (h : position.Fits count) (hle : fewer ≤ count) : position.Fits fewer :=
  ⟨by have := h.line_lt; omega, by have := h.column_lt; omega⟩

theorem after (h : position.Fits (count + 1)) (c : Char) : (position.after c).Fits count := by
  obtain ⟨hline, hcolumn⟩ := h
  simp only [UInt32.size] at hline hcolumn
  unfold Position.after nextLine right
  split
  · constructor
    · simp only [UInt32.toNat_add, UInt32.reduceToNat, UInt32.size]
      omega
    · simp only [UInt32.reduceToNat, UInt32.size]
      omega
  · constructor
    · simp only [UInt32.size]
      omega
    · simp only [UInt32.toNat_add, UInt32.reduceToNat, UInt32.size]
      omega

theorem start (h : count < UInt32.size - 1) : Position.start.Fits count := by
  simp only [UInt32.size] at h
  constructor <;> simp only [Position.start, UInt32.reduceToNat, UInt32.size] <;> omega

end Position.Fits

namespace PushBackLexer

open Step

variable {α β : Type} {lexer : PushBackLexer} {readings rest : List Reading} {c : Char}

/-! ## Reading one character -/

theorem read_of_nil (h : lexer.reader.remaining = []) :
    read lexer = some (.ok none, ⟨⟨[], none, false⟩, lexer.position, lexer.ended⟩) := by
  obtain ⟨⟨readings, last, pushedBack⟩, position, ended⟩ := lexer
  cases pushedBack with
  | false =>
      obtain rfl : readings = [] := h
      rfl
  | true => cases h

theorem read_of_endOfInput (h : lexer.reader.remaining = .endOfInput :: rest) :
    read lexer = some (.ok none, ⟨⟨rest, none, false⟩, lexer.position, lexer.ended⟩) := by
  obtain ⟨⟨readings, last, pushedBack⟩, position, ended⟩ := lexer
  cases pushedBack with
  | false =>
      obtain rfl : readings = .endOfInput :: rest := h
      rfl
  | true =>
      obtain ⟨hlast, rfl⟩ := List.cons.inj h
      cases last with
      | none => rfl
      | some c => cases hlast

theorem read_of_failed {failure : ReadFailure}
    (h : lexer.reader.remaining = .failed failure :: rest) :
    ∃ last, read lexer = some (.error ⟨.unreadableSource failure.message, lexer.position⟩,
      ⟨⟨rest, last, false⟩, lexer.position, lexer.ended⟩) := by
  obtain ⟨⟨readings, last, pushedBack⟩, position, ended⟩ := lexer
  cases pushedBack with
  | false =>
      obtain rfl : readings = .failed failure :: rest := h
      exact ⟨last, rfl⟩
  | true =>
      obtain ⟨hlast, -⟩ := List.cons.inj h
      cases last <;> cases hlast

theorem read_of_char (h : lexer.reader.remaining = .char c :: rest)
    (hfits : lexer.position.Fits (Reading.ahead rest + 1)) :
    read lexer =
      some (.ok (some c), ⟨⟨rest, some c, false⟩, lexer.position.right, lexer.ended⟩) := by
  have hcolumn : Counter.increment? lexer.position.column = some (lexer.position.column + 1) :=
    Counter.increment?_eq_some (by have := hfits.column_lt; omega)
  obtain ⟨⟨readings, last, pushedBack⟩, position, ended⟩ := lexer
  cases pushedBack with
  | false =>
      obtain rfl : readings = .char c :: rest := h
      simp [read, CharReader.read, hcolumn, Position.right]
  | true =>
      obtain ⟨hlast, rfl⟩ := List.cons.inj h
      obtain rfl : last = some c := by
        cases last <;> cases hlast
        rfl
      simp [read, CharReader.read, hcolumn, Position.right]

/-- A character that was read is given back as if it had not been read. -/
theorem unread_of_char {position : Position} {ended : Bool} (hfits : position.Fits 1) :
    unread (some c) ⟨⟨rest, some c, false⟩, position.right, ended⟩ =
      some (.ok (), ⟨⟨rest, some c, true⟩, position, ended⟩) := by
  have hcolumn : Counter.decrement? (position.column + 1) = some position.column :=
    Counter.decrement?_add_one hfits.column_lt
  simp [unread, Position.right, hcolumn, CharReader.unread]

theorem newLine_of_right {reader : CharReader} {position : Position} {ended : Bool}
    (hfits : position.Fits 1) :
    newLine ⟨reader, position.right, ended⟩ =
      some (.ok (), ⟨reader, position.nextLine, ended⟩) := by
  have hline : Counter.increment? position.line = some (position.line + 1) :=
    Counter.increment?_eq_some hfits.line_lt
  simp [newLine, Position.right, Position.nextLine, hline]

end PushBackLexer

theorem isAlphabetic_lineEnd : isAlphabetic '\n' = false := by
  decide +kernel

theorem Run.taken_optional_empty (second : Char) (readings : List Reading) :
    (optional second empty readings).taken = [] ∨
      (optional second empty readings).taken = [second] := by
  unfold optional
  split
  · exact .inl rfl
  · exact .inl rfl
  · exact .inl rfl
  · split
    · rename_i hc
      exact .inr (by rw [hc]; rfl)
    · exact .inl rfl

namespace Opening

variable {c second : Char} {joined alone : TokenKind}

/-- A character of no mark announces a class of characters or nothing. -/
theorem ofChar_mem_of_notMem_marks (h : c ∉ marks) : ofChar c ∈ [blank, digits, word, unknown] := by
  rw [ofChar_of_notMem_marks h]
  repeat' split
  all_goals decide

theorem eq_of_ofChar_eq_lineEnd (h : ofChar c = .lineEnd) : c = '\n' := by
  have hmarks : marks.all (fun mark => ofChar mark != .lineEnd || mark == '\n') = true := by decide
  by_cases hmem : c ∈ marks
  · have hline := List.all_eq_true.mp hmarks c hmem
    rw [h, bne_self_eq_false, Bool.false_or] at hline
    exact eq_of_beq hline
  · have hclass := ofChar_mem_of_notMem_marks hmem
    simp [h] at hclass

theorem ne_lineEnd_of_ofChar_eq_blank (h : ofChar c = .blank) : c ≠ '\n' := by
  rintro rfl
  cases h

theorem second_eq_of_ofChar_eq_pair (h : ofChar c = .pair second joined alone) : second = '=' := by
  have hmarks : marks.all (fun mark =>
      match ofChar mark with | .pair second _ _ => second == '=' | _ => true) = true := by decide
  by_cases hmem : c ∈ marks
  · have hsecond := List.all_eq_true.mp hmarks c hmem
    rw [h] at hsecond
    exact eq_of_beq hsecond
  · have hclass := ofChar_mem_of_notMem_marks hmem
    simp [h] at hclass

end Opening

namespace PushBackLexer

open Step

variable {α β : Type} {lexer : PushBackLexer} {readings rest : List Reading} {c : Char}

/-! ## Reading a run -/

/-- A step that starts at `start` takes the characters of a run, gives `value` if no failure
stopped the run, and leaves room for what is left. -/
structure Follows (result : Option (Except Diagnostic α × PushBackLexer)) (run : Run)
    (start : Position) (value : α) : Prop where
  fits : run.failure = none → (start.afterAll run.taken).Fits (Reading.ahead run.rest)
  exists_lexer : ∃ reached, reached.toLexer = ⟨run.rest, start.afterAll run.taken, false⟩ ∧
    result = some (match run.failure with
      | some failure => .error ⟨.unreadableSource failure.message, start.afterAll run.taken⟩
      | none => .ok value, reached)

theorem Follows.bind_pure {first : Step α} {run : Run} {start : Position} {value : α}
    (h : Follows (first lexer) run start value) (next : α → β) :
    Follows ((first >>= fun value => pure (next value)) lexer) run start (next value) := by
  obtain ⟨hfits, reached, hreached, hfirst⟩ := h
  refine ⟨hfits, reached, hreached, ?_⟩
  cases hfailure : run.failure with
  | none =>
      rw [hfailure] at hfirst
      exact bind_of_ok hfirst _
  | some failure =>
      rw [hfailure] at hfirst
      exact bind_of_error hfirst _

/-- A lexer that is within its source, at a place from which its counters have room. -/
structure Sees (lexer : PushBackLexer) (readings : List Reading) : Prop where
  remaining_eq : lexer.reader.remaining = readings
  ended_eq : lexer.ended = false
  fits : lexer.position.Fits (Reading.ahead readings)

/-- A step that reads one character and goes on by what it is. -/
theorem follows_read {next : Option Char → Step α} {run : Run} {value : α}
    (h : lexer.Sees readings)
    (hend : ∀ {reached : PushBackLexer} {rest}, reached.Sees rest →
      readings = [] ∧ rest = [] ∨ readings = .endOfInput :: rest →
        Follows (next none reached) run reached.position value)
    (hfailed : ∀ failure rest, readings = .failed failure :: rest → run = ⟨[], some failure, rest⟩)
    (hchar : ∀ c rest, readings = .char c :: rest → lexer.position.Fits (Reading.ahead rest + 1) →
      Follows (next (some c) ⟨⟨rest, some c, false⟩, lexer.position.right, false⟩) run
        lexer.position value) :
    Follows ((read >>= next) lexer) run lexer.position value := by
  obtain ⟨hremaining, hended, hfits⟩ := h
  rcases readings with _ | ⟨c | _ | failure, rest⟩
  · have hread := read_of_nil hremaining
    rw [hended] at hread
    rw [bind_of_ok hread]
    exact hend ⟨rfl, rfl, hfits⟩ (.inl ⟨rfl, rfl⟩)
  · have hread := read_of_char hremaining hfits
    rw [hended] at hread
    rw [bind_of_ok hread]
    exact hchar c rest rfl hfits
  · have hread := read_of_endOfInput hremaining
    rw [hended] at hread
    rw [bind_of_ok hread]
    exact hend ⟨rfl, rfl, hfits⟩ (.inr rfl)
  · obtain ⟨last, hread⟩ := read_of_failed hremaining
    rw [bind_of_error hread, hfailed failure rest rfl, hended]
    exact ⟨fun hnone => (by cases hnone), _, rfl, rfl⟩

/-- A run that begins with the character read last. -/
theorem Follows.cons {result : Option (Except Diagnostic α × PushBackLexer)} {run : Run}
    {start : Position} {value : α} (h : Follows result run (start.after c) value) :
    Follows result (run.cons c) start value :=
  ⟨h.fits, h.exists_lexer⟩

theorem Follows.cons_right {result : Option (Except Diagnostic α × PushBackLexer)} {run : Run}
    {start : Position} {value : α} (h : Follows result run start.right value) (hc : c ≠ '\n') :
    Follows result (run.cons c) start value := by
  have hafter : start.after c = start.right := if_neg hc
  exact (hafter ▸ h).cons

/-- A character behind the run is read and given back. -/
theorem follows_unread {position : Position} (hfits : position.Fits (Reading.ahead rest + 1))
    (value : α) :
    Follows
      ((unread (some c) >>= fun _ => pure value)
        ⟨⟨rest, some c, false⟩, position.right, false⟩)
      (.empty (.char c :: rest)) position value := by
  refine ⟨fun _ => hfits, ⟨⟨rest, some c, true⟩, position, false⟩, rfl, ?_⟩
  exact bind_of_ok (unread_of_char (hfits.mono (by omega))) _

theorem follows_pure (h : lexer.Sees readings) (value : α) :
    Follows ((pure value : Step α) lexer) (.empty readings) lexer.position value :=
  ⟨fun _ => h.fits, lexer, by rw [toLexer, h.remaining_eq, h.ended_eq]; rfl, rfl⟩

theorem Sees.right {position : Position} (hfits : position.Fits (Reading.ahead rest + 1))
    (hc : c ≠ '\n') : Sees ⟨⟨rest, some c, false⟩, position.right, false⟩ rest := by
  have hafter : position.after c = position.right := if_neg hc
  exact ⟨rfl, rfl, hafter ▸ hfits.after c⟩

theorem Sees.nextLine {position : Position} (hfits : position.Fits (Reading.ahead rest + 1))
    (last : Option Char) : Sees ⟨⟨rest, last, false⟩, position.nextLine, false⟩ rest :=
  ⟨rfl, rfl, hfits.after '\n'⟩

theorem follows_readWhile {accept : Char → Bool} (hline : accept '\n' = false) {turns : Nat}
    (taken : List Char) (h : lexer.Sees readings) (hturns : readings.length < turns) :
    Follows (readWhile accept turns taken lexer) (.takeWhile accept readings) lexer.position
      (taken ++ (Run.takeWhile accept readings).taken) := by
  induction turns generalizing lexer readings taken with
  | zero => omega
  | succ turns ih =>
      rw [readWhile]
      refine follows_read h ?_ ?_ ?_
      · rintro reached rest hreached (⟨rfl, rfl⟩ | rfl)
        all_goals
          simp only [Run.takeWhile, Run.empty, List.append_nil]
          exact follows_pure hreached taken
      · rintro failure rest rfl
        rfl
      · rintro c rest rfl hfits
        by_cases hc : accept c = true
        · have hne : c ≠ '\n' := by
            rintro rfl
            rw [hline] at hc
            cases hc
          have hrest := ih (taken ++ [c]) (.right hfits hne) (Nat.lt_of_succ_lt_succ hturns)
          rw [Run.takeWhile, if_pos hc]
          simpa [hc, Run.cons] using hrest.cons_right hne
        · rw [Run.takeWhile, if_neg hc]
          simpa [hc, Run.empty] using follows_unread hfits taken

theorem follows_readLine {turns : Nat} (h : lexer.Sees readings)
    (hturns : readings.length < turns) :
    Follows (readLine turns lexer) (.through '\n' readings) lexer.position () := by
  induction turns generalizing lexer readings with
  | zero => omega
  | succ turns ih =>
      rw [readLine]
      refine follows_read h ?_ ?_ ?_
      · rintro reached rest hreached (⟨rfl, rfl⟩ | rfl)
        all_goals exact follows_pure hreached ()
      · rintro failure rest rfl
        rfl
      · rintro c rest rfl hfits
        by_cases hc : c = '\n'
        · subst hc
          refine ⟨fun _ => hfits.after '\n',
            ⟨⟨rest, some '\n', false⟩, lexer.position.nextLine, false⟩, rfl, ?_⟩
          exact newLine_of_right (hfits.mono (by omega))
        · have hrest := ih (.right hfits hc) (Nat.lt_of_succ_lt_succ hturns)
          rw [Run.through, if_neg hc]
          simpa [hc] using hrest.cons_right hc

theorem follows_readString {turns : Nat} (taken : List Char) (h : lexer.Sees readings)
    (hturns : readings.length < turns) :
    Follows (readString turns taken lexer) (.through '"' readings) lexer.position
      (taken ++ (Run.through '"' readings).taken.takeWhile (· ≠ '"')) := by
  induction turns generalizing lexer readings taken with
  | zero => omega
  | succ turns ih =>
      rw [readString]
      refine follows_read h ?_ ?_ ?_
      · rintro reached rest hreached (⟨rfl, rfl⟩ | rfl)
        all_goals
          simp only [Run.through, Run.empty, List.takeWhile_nil, List.append_nil]
          exact follows_pure hreached taken
      · rintro failure rest rfl
        rfl
      · rintro c rest rfl hfits
        by_cases hc : c = '"'
        · subst hc
          refine ⟨fun _ => hfits.after '"',
            ⟨⟨rest, some '"', false⟩, lexer.position.right, false⟩, rfl, ?_⟩
          simp [Run.through, pure, succeed]
        · have htaken : (Run.through '"' (.char c :: rest)).taken.takeWhile (· ≠ '"') =
              c :: (Run.through '"' rest).taken.takeWhile (· ≠ '"') := by
            simp [Run.through, hc, Run.cons]
          rw [htaken, Run.through, if_neg hc]
          simp only [hc, if_false]
          by_cases hline : c = '\n'
          · subst hline
            have hrest := ih (taken ++ ['\n']) (.nextLine hfits (some '\n'))
              (Nat.lt_of_succ_lt_succ hturns)
            simp only [if_true]
            rw [bind_of_ok (newLine_of_right (hfits.mono (by omega)))]
            rw [List.append_assoc, List.singleton_append] at hrest
            exact Follows.cons (c := '\n') hrest
          · have hrest := ih (taken ++ [c]) (.right hfits hline) (Nat.lt_of_succ_lt_succ hturns)
            simp only [hline, if_false]
            simpa using hrest.cons_right hline

/-- One character decides between two lexemes.  The step `behind` reads on if it is `second`. -/
theorem follows_optional {second : Char} {more : List Reading → Run} {behind : Step α}
    {joined : α} (alone : α) (hline : second ≠ '\n') (h : lexer.Sees readings)
    (hbehind : ∀ {reached : PushBackLexer} {rest}, reached.Sees rest →
      rest.length < readings.length →
        Follows (behind reached) (more rest) reached.position joined) :
    Follows
      ((read >>= fun next =>
        if next = some second then behind else unread next >>= fun _ => pure alone) lexer)
      (.optional second more readings) lexer.position
      (if (Run.optional second more readings).taken = [] then alone else joined) := by
  refine follows_read h ?_ ?_ ?_
  · rintro reached rest hreached (⟨rfl, rfl⟩ | rfl)
    all_goals exact follows_pure hreached alone
  · rintro failure rest rfl
    rfl
  · rintro c rest rfl hfits
    by_cases hc : c = second
    · subst hc
      simpa [Run.optional, Run.cons] using
        (hbehind (.right hfits hline) (Nat.lt_succ_self _)).cons_right hline
    · simpa [Run.optional, Run.empty, hc] using follows_unread hfits alone

theorem token_slash {first : Char} {taken : List Char} {position : Position} :
    (if taken = [] then ⟨.slash, String.singleton first, position⟩ else ⟨.newline, "\n", position⟩ :
      Token) = ⟨Opening.slash.kind first taken, Opening.slash.text first taken, position⟩ := by
  unfold Opening.kind Opening.text
  split <;> rfl

theorem token_pair {first second : Char} {joined alone : TokenKind} {taken : List Char}
    {position : Position} (h : taken = [] ∨ taken = [second]) :
    (if taken = [] then ⟨alone, String.singleton first, position⟩
      else ⟨joined, String.ofList [first, second], position⟩ : Token) =
    ⟨(Opening.pair second joined alone).kind first taken,
      (Opening.pair second joined alone).text first taken, position⟩ := by
  rcases h with rfl | rfl <;> rfl

/-- Behind its first character a lexeme goes as far as its run, and the token is made of it. -/
theorem follows_lexeme {first : Char} {position : Position} {turns : Nat} {opening : Opening}
    (hopening : Opening.ofChar first = opening)
    (hfits : position.Fits (Reading.ahead rest + 1)) (hturns : rest.length < turns) :
    Follows
      (lexeme turns first position.right opening
        ⟨⟨rest, some first, false⟩, position.right, false⟩)
      (opening.run rest) (position.after first)
      ⟨opening.kind first (opening.run rest).taken, opening.text first (opening.run rest).taken,
        position.right⟩ := by
  by_cases hline : first = '\n'
  · subst hline
    obtain rfl : opening = .lineEnd := hopening.symm
    rw [lexeme, bind_of_ok (newLine_of_right (hfits.mono (by omega)))]
    exact follows_pure (.nextLine hfits _) _
  · have hafter : position.after first = position.right := if_neg hline
    have hsees := Sees.right hfits hline
    rw [hafter]
    cases opening with
    | lineEnd => exact absurd (Opening.eq_of_ofChar_eq_lineEnd hopening) hline
    | sign kind => exact follows_pure hsees _
    | slash =>
        have hrun := follows_optional (⟨.slash, String.singleton first, position.right⟩ : Token)
          (show '/' ≠ '\n' by decide) hsees
          fun hreached hlt =>
            (follows_readLine hreached (Nat.lt_trans hlt hturns)).bind_pure
              fun _ => (⟨.newline, "\n", position.right⟩ : Token)
        rw [token_slash] at hrun
        exact hrun
    | pair second joined alone =>
        obtain rfl := Opening.second_eq_of_ofChar_eq_pair hopening
        have hrun := follows_optional (⟨alone, String.singleton first, position.right⟩ : Token)
          (show '=' ≠ '\n' by decide) hsees
          fun hreached _ =>
            follows_pure hreached (⟨joined, String.ofList [first, '='], position.right⟩ : Token)
        rw [token_pair (Run.taken_optional_empty _ _)] at hrun
        exact hrun
    | directive => exact (follows_readWhile rfl [first] hsees hturns).bind_pure _
    | quote => exact (follows_readString [] hsees hturns).bind_pure _
    | digits => exact (follows_readWhile rfl [first] hsees hturns).bind_pure _
    | word =>
        exact (follows_readWhile isAlphabetic_lineEnd [first] hsees hturns).bind_pure _
    | blank => exact follows_pure hsees _
    | unknown => exact follows_pure hsees _

/-! ## Reading a token -/

/-- Both lexers give the same result and reach the same state, in which the counters have room
for what is left. -/
structure Agrees (result : Option (Except Diagnostic Token × PushBackLexer))
    (outcome : Except Diagnostic Token × Lexer) : Prop where
  exists_lexer : ∃ reached, result = some (outcome.1, reached) ∧ reached.toLexer = outcome.2
  fits : ∀ token, outcome.1 = .ok token →
    outcome.2.position.Fits (Reading.ahead outcome.2.readings)

theorem Follows.agrees_scan {result : Option (Except Diagnostic Token × PushBackLexer)}
    {first : Char} {position : Position} {opening : Opening}
    (hopening : Opening.ofChar first = opening) (hblank : opening ≠ .blank)
    (h : Follows result (opening.run rest) (position.after first)
      ⟨opening.kind first (opening.run rest).taken, opening.text first (opening.run rest).taken,
        position.right⟩) :
    Agrees result (Lexer.scan position (.char first :: rest)) := by
  obtain ⟨hfits, reached, hreached, hresult⟩ := h
  subst hopening
  rw [Lexer.scan_of_ne_blank hblank]
  refine ⟨⟨reached, hresult, hreached⟩, fun token htoken => hfits ?_⟩
  cases hfailure : ((Opening.ofChar first).run rest).failure with
  | none => rfl
  | some failure =>
      rw [hfailure] at htoken
      cases htoken

theorem nextToken_agrees {turns : Nat} (h : lexer.Sees readings)
    (hturns : readings.length < turns) :
    Agrees (nextToken turns lexer) (Lexer.scan lexer.position readings) := by
  induction turns generalizing lexer readings with
  | zero => omega
  | succ turns ih =>
      obtain ⟨hremaining, hended, hfits⟩ := h
      rw [nextToken]
      rcases readings with _ | ⟨c | _ | failure, rest⟩
      · rw [bind_of_ok (read_of_nil hremaining)]
        exact ⟨⟨_, rfl, rfl⟩, fun _ _ => hfits⟩
      · rw [bind_of_ok (read_of_char hremaining hfits), hended]
        have hlt : rest.length < turns := Nat.lt_of_succ_lt_succ hturns
        dsimp only
        split
        · rename_i hblank
          have hline := Opening.ne_lineEnd_of_ofChar_eq_blank hblank
          have hafter : lexer.position.after c = lexer.position.right := if_neg hline
          rw [Lexer.scan, hblank, hafter]
          exact ih (.right hfits hline) hlt
        · rename_i hblank
          exact (follows_lexeme rfl hfits hlt).agrees_scan rfl hblank
      · rw [bind_of_ok (read_of_endOfInput hremaining)]
        exact ⟨⟨_, rfl, rfl⟩, fun _ _ => hfits⟩
      · obtain ⟨last, hread⟩ := read_of_failed hremaining
        rw [bind_of_error hread, hended]
        exact ⟨⟨_, rfl, rfl⟩, fun token htoken => by cases htoken⟩

/-- Reading with push-back is looking ahead. -/
theorem next_agrees (h : lexer.position.Fits (Reading.ahead lexer.reader.remaining)) :
    Agrees (next lexer) lexer.toLexer.next := by
  rw [next, Lexer.next, toLexer]
  split
  · rename_i hended
    exact ⟨⟨lexer, rfl, by simp [toLexer]⟩, fun _ _ => h⟩
  · rename_i hended
    exact nextToken_agrees ⟨rfl, by simpa using hended, h⟩ (Nat.lt_succ_self _)

/-! ## Reading all tokens -/

theorem next_of_error {behind : Lexer} {diagnostic : Diagnostic}
    (hfits : lexer.position.Fits (Reading.ahead lexer.reader.remaining))
    (h : lexer.toLexer.next = (.error diagnostic, behind)) :
    ∃ reached, next lexer = some (.error diagnostic, reached) := by
  obtain ⟨⟨reached, hnext, -⟩, -⟩ := next_agrees hfits
  rw [h] at hnext
  exact ⟨reached, hnext⟩

/-- A call that makes a token leaves room for the next call. -/
theorem next_of_ok {behind : Lexer} {token : Token}
    (hfits : lexer.position.Fits (Reading.ahead lexer.reader.remaining))
    (h : lexer.toLexer.next = (.ok token, behind)) :
    ∃ reached, next lexer = some (.ok token, reached) ∧ reached.toLexer = behind ∧
      reached.position.Fits (Reading.ahead reached.reader.remaining) := by
  obtain ⟨⟨reached, hnext, hreached⟩, hroom⟩ := next_agrees hfits
  rw [h] at hnext hreached hroom
  subst hreached
  exact ⟨reached, hnext, rfl, hroom token rfl⟩

/-- The calls up to the end of the source, or up to a failure, make what the lexer that looks
ahead makes. -/
theorem exists_tokensWithin {turns : Nat}
    (hfits : lexer.position.Fits (Reading.ahead lexer.reader.remaining))
    (hturns : lexer.reader.remaining.length < turns) :
    ∃ reached, tokensWithin turns lexer = some (lexer.toLexer.tokens, reached) := by
  induction turns generalizing lexer with
  | zero => omega
  | succ turns ih =>
      rw [tokensWithin, Lexer.tokens]
      split
      · rename_i diagnostic behind hlexer
        obtain ⟨reached, hnext⟩ := next_of_error hfits hlexer
        exact ⟨reached, bind_of_error hnext _⟩
      · rename_i token behind hlexer
        obtain ⟨reached, hnext, rfl, hroom⟩ := next_of_ok hfits hlexer
        rw [bind_of_ok hnext]
        split
        · exact ⟨reached, rfl⟩
        · rename_i hkind
          have hless : reached.reader.remaining.length < turns := by
            have hlt := Lexer.length_readings_next_lt hlexer hkind
            simp only [toLexer] at hlt
            omega
          obtain ⟨last, hothers⟩ := ih hroom hless
          refine ⟨last, ?_⟩
          cases hrest : reached.toLexer.tokens with
          | error diagnostic =>
              rw [hrest] at hothers
              exact bind_of_error hothers _
          | ok others =>
              rw [hrest] at hothers
              exact bind_of_ok hothers _

/-- Up to a failure, or up to the end, a source that is short enough for the counters is cut into
the same tokens by both lexers. -/
theorem exists_tokens_ofReadings (h : Reading.ahead readings < UInt32.size - 1) :
    ∃ reached, tokens (.ofReadings readings) = some (tokenizeReadings readings, reached) := by
  have hfits : (ofReadings readings).position.Fits
      (Reading.ahead (ofReadings readings).reader.remaining) := .start h
  exact exists_tokensWithin hfits (Nat.lt_succ_self _)

end PushBackLexer

end LineScript
