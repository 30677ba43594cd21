import LineScript.CommandLine

/-!
# The program

Reads the source that the command line names and writes the response.
-/

namespace LineScript

namespace SourceFailure

/-- The failure with the given number of the operating system, which may come as its
negative in 32 bits, and `details` for one that is not expected here. -/
def ofCode (code : UInt32) (details : String) : SourceFailure :=
  match if code < 0x80000000 then code else -code with
  | 2 => .missing
  | 13 => .denied
  | 20 => .notDirectory
  | 21 => .directory
  | 36 => .nameTooLong
  | _ => .other details

/-- Why a source could not be read. -/
def ofError (error : IO.Error) : SourceFailure :=
  match error with
  | .noFileOrDirectory _ code _ | .permissionDenied _ code _ | .inappropriateType _ code _
  | .invalidArgument _ code _ | .resourceExhausted _ code _ => ofCode code (toString error)
  | _ => .other (toString error)

end SourceFailure

/-- The content of the file called `name`, or of the standard input without a name. -/
def readContent (name : Option String) : IO (Except SourceFailure ByteArray) := do
  try
    match name with
    | none => return .ok (← (← IO.getStdin).readBinToEnd)
    | some name => return .ok (← IO.FS.readBinFile name)
  catch error => return .error (.ofError error)

/-- Writes a response and gives its exit code. -/
def write (response : Response) : IO UInt32 := do
  (← IO.getStdout).putStr response.standardOutput
  (← IO.getStderr).putStr response.standardError
  return response.exitCode.toUInt32

end LineScript

open LineScript in
/-- Checks a source as the arguments ask for. -/
def main (arguments : List String) : IO UInt32 := do
  match Request.ofArguments arguments with
  | .version => write .version
  | .misuse => write .misuse
  | .check options => write (.ofContent options (← readContent options.file))
