import LineScript.Source.Reading

/-!
# A character reader with push-back

A reader hands out the readings of a source one by one and keeps the last result,
so that one result can be pushed back and read again.  A failure is no result: it
leaves the kept result as it was.
-/

namespace LineScript

/-- The readings to come, the last result, and whether that result is to be read again.
No character stands for the end of input, and for the time before the first read. -/
structure CharReader where
  readings : List Reading
  last : Option Char
  pushedBack : Bool

namespace CharReader

/-- A reader at the beginning of its source. -/
def ofReadings (readings : List Reading) : CharReader :=
  ⟨readings, none, false⟩

/-- The next character, or none at an end of input. -/
def read (reader : CharReader) : Except ReadFailure (Option Char) × CharReader :=
  if reader.pushedBack then (.ok reader.last, { reader with pushedBack := false })
  else
    match reader.readings with
    | [] => (.ok none, { reader with last := none })
    | .endOfInput :: rest => (.ok none, ⟨rest, none, false⟩)
    | .char c :: rest => (.ok (some c), ⟨rest, some c, false⟩)
    | .failed failure :: rest => (.error failure, { reader with readings := rest })

/-- The reader that gives its last result once more. -/
def unread (reader : CharReader) : CharReader :=
  { reader with pushedBack := true }

end CharReader

end LineScript
