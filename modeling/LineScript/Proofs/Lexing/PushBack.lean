import LineScript.Source.CharReader
import LineScript.Token.Lexer

/-!
# Lexing with push-back

A lexer may also learn where a lexeme ends by reading one character too many and giving
it back to its reader.  It counts each character as it is read and counts it back when it
is given back, with counters that must stay in their range.
-/

namespace LineScript

namespace Counter

/-- One more, if the counter can hold it. -/
def increment? (counter : UInt32) : Option UInt32 :=
  if counter.toNat + 1 < UInt32.size then some (counter + 1) else none

/-- One less, if there is one. -/
def decrement? (counter : UInt32) : Option UInt32 :=
  if counter = 0 then none else some (counter - 1)

end Counter

/-- A lexer with push-back: its reader, the position counted so far, and whether the end of the
source has been met between lexemes. -/
structure PushBackLexer where
  reader : CharReader
  position : Position
  ended : Bool

namespace PushBackLexer

/-- A step of the lexer gives a result or the failure to read the source.  It has no outcome if
a counter leaves its range, or if its loops do not end within the given number of turns. -/
def Step (α : Type) : Type :=
  PushBackLexer → Option (Except Diagnostic α × PushBackLexer)

namespace Step

variable {α β : Type}

/-- The step that reads nothing. -/
def succeed (value : α) : Step α := fun lexer => some (.ok value, lexer)

/-- One step after the other, unless the source cannot be read. -/
def andThen (first : Step α) (second : α → Step β) : Step β := fun lexer =>
  match first lexer with
  | some (.ok value, reached) => second value reached
  | some (.error diagnostic, reached) => some (.error diagnostic, reached)
  | none => none

instance : Monad Step where
  pure := succeed
  bind := andThen

theorem bind_of_ok {first : Step α} {lexer reached : PushBackLexer} {value : α}
    (h : first lexer = some (.ok value, reached)) (second : α → Step β) :
    (first >>= second) lexer = second value reached := by
  show andThen first second lexer = _
  rw [andThen, h]

theorem bind_of_error {first : Step α} {lexer reached : PushBackLexer} {diagnostic : Diagnostic}
    (h : first lexer = some (.error diagnostic, reached)) (second : α → Step β) :
    (first >>= second) lexer = some (.error diagnostic, reached) := by
  show andThen first second lexer = _
  rw [andThen, h]

end Step

/-- Reads a character and counts it.  There is none at an end of input. -/
def read : Step (Option Char) := fun lexer =>
  match lexer.reader.read with
  | (.error failure, reader) =>
    some (.error ⟨.unreadableSource failure.message, lexer.position⟩, { lexer with reader })
  | (.ok none, reader) => some (.ok none, { lexer with reader })
  | (.ok (some c), reader) =>
    (Counter.increment? lexer.position.column).map fun column =>
      (.ok (some c), { lexer with reader, position := ⟨lexer.position.line, column⟩ })

/-- Gives the character read last back to the reader.  An end of input stays read. -/
def unread : Option Char → Step Unit
  | none => pure ()
  | some _ => fun lexer =>
    (Counter.decrement? lexer.position.column).map fun column =>
      (.ok (), { lexer with
        reader := lexer.reader.unread, position := ⟨lexer.position.line, column⟩ })

/-- Counts the line that ends with the character read last. -/
def newLine : Step Unit := fun lexer =>
  (Counter.increment? lexer.position.line).map fun line =>
    (.ok (), { lexer with position := ⟨line, 0⟩ })

/-- Reads on while `accept` holds, and one character too many. -/
def readWhile (accept : Char → Bool) : Nat → List Char → Step (List Char)
  | 0, _ => fun _ => none
  | turns + 1, taken => do
    match ← read with
    | some c =>
      if accept c then readWhile accept turns (taken ++ [c])
      else
        unread (some c)
        return taken
    | none =>
      unread none
      return taken

/-- Reads on through the end of the line. -/
def readLine : Nat → Step Unit
  | 0 => fun _ => none
  | turns + 1 => do
    match ← read with
    | some c => if c = '\n' then newLine else readLine turns
    | none => return ()

/-- Reads on through the closing quote and gives what stands before it. -/
def readString : Nat → List Char → Step (List Char)
  | 0, _ => fun _ => none
  | turns + 1, taken => do
    match ← read with
    | some c =>
      if c = '"' then return taken
      else
        if c = '\n' then newLine
        readString turns (taken ++ [c])
    | none => return taken

/-- The token whose first character, with what it announces, was read last. -/
def lexeme (turns : Nat) (first : Char) (start : Position) : Opening → Step Token
  | .sign kind => return ⟨kind, String.singleton first, start⟩
  | .lineEnd => do
    newLine
    return ⟨.newline, "\n", start⟩
  | .slash => do
    let next ← read
    if next = some '/' then
      readLine turns
      return ⟨.newline, "\n", start⟩
    else
      unread next
      return ⟨.slash, String.singleton first, start⟩
  | .pair second joined alone => do
    let next ← read
    if next = some second then return ⟨joined, String.ofList [first, second], start⟩
    else
      unread next
      return ⟨alone, String.singleton first, start⟩
  | .directive => do
    let taken ← readWhile (fun c => !isBlank c) turns [first]
    let kind := if String.ofList taken = Opening.importDirective then .importDirective else .illegal
    return ⟨kind, String.ofList taken, start⟩
  | .quote => do
    let taken ← readString turns []
    return ⟨.string, String.ofList taken, start⟩
  | .digits => do
    let taken ← readWhile Char.isDigit turns [first]
    return ⟨.integer, String.ofList taken, start⟩
  | .word => do
    let taken ← readWhile isAlphabetic turns [first]
    return ⟨Word.kind (String.ofList taken), String.ofList taken, start⟩
  | .blank | .unknown => return ⟨.illegal, String.singleton first, start⟩

/-- The next token, found after at most `turns` blanks. -/
def nextToken : Nat → Step Token
  | 0 => fun _ => none
  | turns + 1 => do
    match ← read with
    | none => fun lexer => some (.ok (.endAt lexer.position), { lexer with ended := true })
    | some first => fun lexer =>
      match Opening.ofChar first with
      | .blank => nextToken turns lexer
      | opening => lexeme turns first lexer.position opening lexer

end PushBackLexer

/-- What a reader still gives: the result pushed back, if there is one, and its readings. -/
def CharReader.remaining (reader : CharReader) : List Reading :=
  if reader.pushedBack then reader.last.elim .endOfInput .char :: reader.readings
  else reader.readings

namespace PushBackLexer

/-- The next token and the lexer after it. -/
def next : Step Token := fun lexer =>
  if lexer.ended then some (.ok (.endAt lexer.position), lexer)
  else nextToken (lexer.reader.remaining.length + 1) lexer

/-- The tokens up to and including the one that ends the source. -/
def tokensWithin : Nat → Step (List Token)
  | 0 => fun _ => none
  | turns + 1 => do
    let token ← next
    if token.kind = .endOfInput then return [token]
    else
      let others ← tokensWithin turns
      return token :: others

/-- The tokens of all that is left of the source. -/
def tokens : Step (List Token) := fun lexer =>
  tokensWithin (lexer.reader.remaining.length + 1) lexer

/-- A lexer at the beginning of its source. -/
def ofReadings (readings : List Reading) : PushBackLexer :=
  ⟨.ofReadings readings, .start, false⟩

/-- The lexer that looks ahead in the same source at the same place. -/
def toLexer (lexer : PushBackLexer) : Lexer :=
  ⟨lexer.reader.remaining, lexer.position, lexer.ended⟩

end PushBackLexer

end LineScript
