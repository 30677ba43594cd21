/-!
# Positions in a source

A position counts lines from one and, on its line, the characters read so far.
Both counters are 32-bit words.  Reading a character moves a position by
`Position.after`, so the position reached after a piece of source depends on the
characters of that piece alone.
-/

namespace LineScript

/-- A place in a source: a line number and the number of characters read on that line. -/
structure Position where
  line : UInt32
  column : UInt32
deriving DecidableEq, Repr

namespace Position

/-- Before the first character of a source. -/
def start : Position := ⟨1, 0⟩

/-- The position of what no source holds. -/
def nowhere : Position := ⟨0, 0⟩

/-- One character further on the same line. -/
def right (position : Position) : Position :=
  { position with column := position.column + 1 }

/-- The beginning of the next line. -/
def nextLine (position : Position) : Position :=
  ⟨position.line + 1, 0⟩

/-- The position once `c` has been read. -/
def after (position : Position) (c : Char) : Position :=
  if c = '\n' then position.nextLine else position.right

/-- The position once all of `cs` has been read. -/
def afterAll (position : Position) (cs : List Char) : Position :=
  cs.foldl after position

@[simp] theorem afterAll_nil (position : Position) : position.afterAll [] = position := rfl

@[simp] theorem afterAll_cons (position : Position) (c : Char) (cs : List Char) :
    position.afterAll (c :: cs) = (position.after c).afterAll cs := rfl

theorem afterAll_append (position : Position) (cs ds : List Char) :
    position.afterAll (cs ++ ds) = (position.afterAll cs).afterAll ds := by
  simp [afterAll]

/-- The line and the column, with a colon between them. -/
def render (position : Position) : String :=
  toString position.line.toNat ++ ":" ++ toString position.column.toNat

end Position

end LineScript
