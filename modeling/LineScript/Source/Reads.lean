/-!
# Reads from a byte stream

A source may come from a stream that is asked for bytes again and again.  A read
delivers bytes, is interrupted and tried again, fails, or delivers nothing, which
is an end of input.  An end of input need not be the last read: a terminal can go
on after one.  Once its reads are used up a stream is at its end for good.
-/

namespace LineScript

/-- The outcome of asking a stream for more bytes. -/
inductive Read where
  | bytes (content : List UInt8)
  | interrupted
  | failed (reason : String)
deriving DecidableEq, Repr

/-- What a reader of single bytes meets. -/
inductive ByteEvent where
  | byte (value : UInt8)
  | endOfInput
  | failed (reason : String)
deriving DecidableEq, Repr

namespace Read

/-- What a reader of single bytes meets in one read: a read of no bytes is an end
of input, and an interrupted read leaves no trace. -/
def events : Read → List ByteEvent
  | bytes [] => [.endOfInput]
  | bytes (first :: others) => (first :: others).map .byte
  | interrupted => []
  | failed reason => [.failed reason]

end Read

/-- What a reader of single bytes meets in a stream. -/
def byteEvents (reads : List Read) : List ByteEvent :=
  reads.flatMap Read.events

end LineScript
