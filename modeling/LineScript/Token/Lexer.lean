import LineScript.Diagnostic
import LineScript.Source.Reading
import LineScript.Text.Alphabetic
import LineScript.Text.Blank
import LineScript.Token.Word

/-!
# The lexer

The first character of a lexeme decides what may follow it (`Opening.ofChar`), the
readings decide how far it goes (`Opening.run`), and the characters taken decide
the token (`Opening.kind`, `Opening.text`).  A character that does not belong to the lexeme stays
among the readings.  An end of input ends a lexeme too and is used up by doing so;
only one that is met between lexemes ends the token list.

The position moves by the characters taken and by nothing else, so it is always
the position after the text read so far, whatever was looked at beyond it.
-/

namespace LineScript

/-- The characters taken from the readings, the failure that stopped them, and the
readings that are left. -/
structure Run where
  taken : List Char
  failure : Option ReadFailure
  rest : List Reading

namespace Run

/-- No character is taken. -/
def empty (readings : List Reading) : Run :=
  ⟨[], none, readings⟩

/-- A run with one more character in front. -/
def cons (c : Char) (run : Run) : Run :=
  { run with taken := c :: run.taken }

/-- The longest run of characters that `accept` holds of. -/
def takeWhile (accept : Char → Bool) : List Reading → Run
  | [] => empty []
  | .endOfInput :: rest => empty rest
  | .failed failure :: rest => ⟨[], some failure, rest⟩
  | .char c :: rest => if accept c then (takeWhile accept rest).cons c else empty (.char c :: rest)

/-- The characters up to and including the next `closing`, or all there are. -/
def through (closing : Char) : List Reading → Run
  | [] => empty []
  | .endOfInput :: rest => empty rest
  | .failed failure :: rest => ⟨[], some failure, rest⟩
  | .char c :: rest => if c = closing then ⟨[c], none, rest⟩ else (through closing rest).cons c

/-- The next character if it is `second`, and then what `more` takes. -/
def optional (second : Char) (more : List Reading → Run) : List Reading → Run
  | [] => empty []
  | .endOfInput :: rest => empty rest
  | .failed failure :: rest => ⟨[], some failure, rest⟩
  | .char c :: rest => if c = second then (more rest).cons c else empty (.char c :: rest)

theorem length_rest_takeWhile_le (accept : Char → Bool) (readings : List Reading) :
    (takeWhile accept readings).rest.length ≤ readings.length := by
  fun_induction takeWhile accept readings with
  | case4 c rest _ ih => simpa [cons] using Nat.le_succ_of_le ih
  | _ => simp [empty]

theorem length_rest_through_le (closing : Char) (readings : List Reading) :
    (through closing readings).rest.length ≤ readings.length := by
  fun_induction through closing readings with
  | case5 c rest _ ih => simpa [cons] using Nat.le_succ_of_le ih
  | _ => simp [empty]

theorem length_rest_optional_le (second : Char) {more : List Reading → Run}
    (h : ∀ readings, (more readings).rest.length ≤ readings.length) (readings : List Reading) :
    (optional second more readings).rest.length ≤ readings.length := by
  unfold optional
  split
  · simp [empty]
  · simp [empty]
  · simp
  · rename_i c rest
    have := h rest
    split
    · simp [cons]
      omega
    · simp [empty]

end Run

/-- What the first character of a lexeme announces. -/
inductive Opening where
  | sign (kind : TokenKind)
  | lineEnd
  | slash
  | pair (second : Char) (joined alone : TokenKind)
  | directive
  | quote
  | digits
  | word
  | blank
  | unknown
deriving DecidableEq, Repr

namespace Opening

/-- The signs that are tokens by themselves, whatever follows. -/
def signs : List (Char × TokenKind) :=
  [('+', .plus), ('-', .dash), ('*', .star), ('%', .percent), ('<', .less), ('>', .greater),
    ('(', .openParen), (')', .closeParen), ('[', .openBracket), (']', .closeBracket),
    (',', .comma), ('.', .dot), ('\x7b', .openCurly), ('\x7d', .closeCurly)]

/-- What `c` announces as the first character of a lexeme. -/
def ofChar (c : Char) : Opening :=
  match signs.lookup c with
  | some kind => sign kind
  | none =>
    if c = '\n' then lineEnd
    else if c = '/' then slash
    else if c = '=' then pair '=' .equals .assignment
    else if c = '!' then pair '=' .notEquals .exclamation
    else if c = '@' then directive
    else if c = '"' then quote
    else if isBlank c then blank
    else if c.isDigit then digits
    else if isAlphabetic c then word
    else unknown

/-- The characters after the first that belong to the lexeme.  Two slashes begin a
comment, which runs through the end of its line. -/
def run : Opening → List Reading → Run
  | slash => Run.optional '/' (Run.through '\n')
  | pair second _ _ => Run.optional second Run.empty
  | directive => Run.takeWhile fun c => !isBlank c
  | quote => Run.through '"'
  | digits => Run.takeWhile Char.isDigit
  | word => Run.takeWhile isAlphabetic
  | sign _ | lineEnd | blank | unknown => Run.empty

/-- The only directive there is. -/
def importDirective : String := "@import"

/-- The kind of the lexeme that begins with `first` and goes on with `taken`.  A
comment stands for the end of its line. -/
def kind (opening : Opening) (first : Char) (taken : List Char) : TokenKind :=
  match opening with
  | sign kind => kind
  | lineEnd => .newline
  | slash => if taken = [] then .slash else .newline
  | pair _ joined alone => if taken = [] then alone else joined
  | directive =>
    if String.ofList (first :: taken) = importDirective then .importDirective else .illegal
  | quote => .string
  | digits => .integer
  | word => Word.kind (String.ofList (first :: taken))
  | blank | unknown => .illegal

/-- The text of the lexeme that begins with `first` and goes on with `taken`: the
line end for a comment, what the quotes enclose for a string, and else all of it. -/
def text (opening : Opening) (first : Char) (taken : List Char) : String :=
  match opening with
  | slash => if taken = [] then String.singleton first else "\n"
  | quote => String.ofList (taken.takeWhile (· ≠ '"'))
  | _ => String.ofList (first :: taken)

theorem length_rest_run_le (opening : Opening) (readings : List Reading) :
    (opening.run readings).rest.length ≤ readings.length := by
  cases opening with
  | slash => exact Run.length_rest_optional_le _ (Run.length_rest_through_le _) _
  | pair => exact Run.length_rest_optional_le _ (fun _ => Nat.le_refl _) _
  | directive | digits | word => exact Run.length_rest_takeWhile_le _ _
  | quote => exact Run.length_rest_through_le _ _
  | sign | lineEnd | blank | unknown => exact Nat.le_refl _

end Opening

/-- The readings to come, the position reached, and whether the end of the source
has been met between lexemes. -/
structure Lexer where
  readings : List Reading
  position : Position
  ended : Bool

namespace Lexer

/-- A lexer at the beginning of its source. -/
def ofReadings (readings : List Reading) : Lexer :=
  ⟨readings, .start, false⟩

/-- The next token of the readings that follow `position`, and the lexer after it.
When a lexeme cannot be read to its end, what was read of it is lost. -/
def scan (position : Position) : List Reading → Except Diagnostic Token × Lexer
  | [] => (.ok (.endAt position), ⟨[], position, true⟩)
  | .endOfInput :: rest => (.ok (.endAt position), ⟨rest, position, true⟩)
  | .failed failure :: rest =>
    (.error ⟨.unreadableSource failure.message, position⟩, ⟨rest, position, false⟩)
  | .char first :: rest =>
    match Opening.ofChar first with
    | .blank => scan (position.after first) rest
    | opening =>
      let run := opening.run rest
      let reached := (position.after first).afterAll run.taken
      match run.failure with
      | some failure =>
        (.error ⟨.unreadableSource failure.message, reached⟩, ⟨run.rest, reached, false⟩)
      | none =>
        (.ok ⟨opening.kind first run.taken, opening.text first run.taken, position.right⟩,
          ⟨run.rest, reached, false⟩)

/-- The next token and the lexer after it.  At the end of the source every call
gives the same last token. -/
def next (lexer : Lexer) : Except Diagnostic Token × Lexer :=
  if lexer.ended then (.ok (.endAt lexer.position), lexer)
  else scan lexer.position lexer.readings

theorem length_readings_scan_lt {position : Position} {readings : List Reading} {token : Token}
    {lexer : Lexer} (h : scan position readings = (.ok token, lexer))
    (hkind : token.kind ≠ .endOfInput) : lexer.readings.length < readings.length := by
  fun_induction scan position readings with
  | case1 | case2 =>
      simp only [Prod.mk.injEq, Except.ok.injEq] at h
      exact absurd (by rw [← h.1]; rfl) hkind
  | case3 => simp at h
  | case4 _ _ _ _ ih => exact Nat.lt_succ_of_lt (ih h)
  | case5 => simp at h
  | case6 _ first rest =>
      simp only [Prod.mk.injEq] at h
      rw [← h.2]
      exact Nat.lt_succ_of_le ((Opening.ofChar first).length_rest_run_le rest)

/-- Every token but the last uses up at least one reading. -/
theorem length_readings_next_lt {lexer rest : Lexer} {token : Token}
    (h : lexer.next = (.ok token, rest)) (hkind : token.kind ≠ .endOfInput) :
    rest.readings.length < lexer.readings.length := by
  unfold next at h
  split at h
  · simp only [Prod.mk.injEq, Except.ok.injEq] at h
    exact absurd (by rw [← h.1]; rfl) hkind
  · exact length_readings_scan_lt h hkind

/-- The tokens up to and including the one that ends the source.  A failure to read
the source leaves no tokens at all. -/
def tokens (lexer : Lexer) : Except Diagnostic (List Token) :=
  match _ : lexer.next with
  | (.error diagnostic, _) => .error diagnostic
  | (.ok token, rest) =>
    if _ : token.kind = .endOfInput then .ok [token]
    else (tokens rest).map (token :: ·)
termination_by lexer.readings.length
decreasing_by exact length_readings_next_lt ‹_› ‹_›

end Lexer

/-- The tokens of a source given as readings. -/
def tokenizeReadings (readings : List Reading) : Except Diagnostic (List Token) :=
  (Lexer.ofReadings readings).tokens

/-- The tokens of a text. -/
def tokenize (text : String) : Except Diagnostic (List Token) :=
  tokenizeReadings (Reading.ofString text)

/-- The tokens of a byte stream. -/
def tokenizeReads (reads : List Read) : Except Diagnostic (List Token) :=
  tokenizeReadings (Reading.ofReads reads)

end LineScript
