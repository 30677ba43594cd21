import LineScript.Source.Reads

/-!
# Readings: a source as characters

The lexer sees a source as a list of readings: characters, ends of input and
failures.  A byte stream becomes readings by UTF-8.  The first byte of a character
announces how many bytes the character has; that many bytes are taken whatever
they are, and only then is it decided whether they encode a character.  So a
malformed character swallows all the bytes that it announced.
-/

namespace LineScript

/-- Why no character could be read. -/
inductive ReadFailure where
  | device (reason : String)
  | notUtf8
deriving DecidableEq, Repr

/-- The failure in words. -/
def ReadFailure.message : ReadFailure → String
  | device reason => reason
  | notUtf8 => "source is not valid UTF-8"

/-- What the lexer meets when it asks for a character. -/
inductive Reading where
  | char (value : Char)
  | endOfInput
  | failed (failure : ReadFailure)
deriving DecidableEq, Repr

namespace Reading

/-- How many bytes the character that begins with `lead` has.  A byte that begins
no character stands alone. -/
def announcedWidth (lead : UInt8) : Nat :=
  if lead < 0xC0 then 1
  else if lead < 0xE0 then 2
  else if lead < 0xF0 then 3
  else if lead < 0xF8 then 4
  else 1

/-- Whether `bytes` are all the bytes that the first of them announces. -/
def isComplete (bytes : List UInt8) : Bool :=
  match bytes with
  | [] => false
  | lead :: _ => announcedWidth lead ≤ bytes.length

/-- The character whose encoding is `bytes`, or a failure: overlong forms,
surrogates and numbers above the last code point encode nothing. -/
def ofBytes (bytes : List UInt8) : Reading :=
  match bytes.toByteArray.utf8DecodeChar? 0 with
  | some c => char c
  | none => failed .notUtf8

/-- The readings of a stream of which `pending` bytes belong to a character that
is not complete.  An end of input or a failure in the middle of a character loses
these bytes. -/
def decode (pending : List UInt8) : List ByteEvent → List Reading
  | [] => if pending = [] then [] else [failed .notUtf8]
  | .byte value :: events =>
    if isComplete (pending ++ [value]) then
      ofBytes (pending ++ [value]) :: decode [] events
    else decode (pending ++ [value]) events
  | .endOfInput :: events =>
    (if pending = [] then endOfInput else failed .notUtf8) :: decode [] events
  | .failed reason :: events => failed (.device reason) :: decode [] events

/-- The readings of a byte stream. -/
def ofReads (reads : List Read) : List Reading :=
  decode [] (byteEvents reads)

/-- The readings of a text. -/
def ofString (text : String) : List Reading :=
  text.toList.map char

end Reading

end LineScript
