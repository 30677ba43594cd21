import LineScript.Compilation
import LineScript.Tree.Render

/-!
# The command line

The arguments are read from left to right into a request, and a request for a check
becomes the text on the two output channels and an exit code.  Reading the source
and writing the texts is left to the program.
-/

namespace LineScript

/-- What to check and what to show: without a file the source is the standard input. -/
structure CheckOptions where
  file : Option String
  showTokens : Bool
  showTree : Bool
  strict : Bool
deriving DecidableEq, Repr

namespace CheckOptions

/-- The options of a command line without arguments. -/
def initial : CheckOptions := ⟨none, false, false, false⟩

/-- The name of the source in reports. -/
def sourceName (options : CheckOptions) : String :=
  options.file.getD "<stdin>"

/-- The checks that are asked for. -/
def checks (options : CheckOptions) : Checks :=
  if options.strict then .strict else .basic

/-- The options with a file.  There is at most one, and it has a name. -/
def withFile (options : CheckOptions) (file : String) : Option CheckOptions :=
  if options.file.isSome || file = "" then none else some { options with file := some file }

/-- The options with one more flag, which must be known and not given before. -/
def withFlag (options : CheckOptions) (flag : String) : Option CheckOptions :=
  if flag = "--tokens" then
    if options.showTokens then none else some { options with showTokens := true }
  else if flag = "--ast" then
    if options.showTree then none else some { options with showTree := true }
  else if flag = "--strict" then
    if options.strict then none else some { options with strict := true }
  else none

/-- The options with files only, which is what stands after `--`. -/
def withFiles (options : CheckOptions) : List String → Option CheckOptions
  | [] => some options
  | file :: others =>
    match options.withFile file with
    | some options => options.withFiles others
    | none => none

end CheckOptions

/-- What a command line asks for. -/
inductive Request where
  | check (options : CheckOptions)
  | version
  | misuse
deriving DecidableEq, Repr

namespace Request

/-- Whether an argument asks for the version.  A short flag does so whatever is
written to it. -/
def asksForVersion (argument : String) : Bool :=
  argument = "--version" || argument.startsWith "-V"

/-- Whether an argument is a flag: it begins with a dash and is longer than that. -/
def isFlag (argument : String) : Bool :=
  argument.startsWith "-" && argument ≠ "-"

/-- The request of arguments that follow those read into `options`.  The first
argument that is wrong or asks for the version decides. -/
def following (options : CheckOptions) : List String → Request
  | [] => check options
  | argument :: others =>
    if argument = "--" then
      match options.withFiles others with
      | some options => check options
      | none => misuse
    else if asksForVersion argument then version
    else
      match if isFlag argument then options.withFlag argument else options.withFile argument with
      | some options => following options others
      | none => misuse

/-- The request of a command line. -/
def ofArguments (arguments : List String) : Request :=
  following .initial arguments

end Request

/-- What a run of the program writes, and its exit code. -/
structure Response where
  exitCode : UInt8
  standardOutput : String
  standardError : String
deriving DecidableEq, Repr

/-- Why the text of a source cannot be had. -/
inductive SourceFailure where
  | missing
  | denied
  | notDirectory
  | directory
  | nameTooLong
  | notUtf8
  | other (reason : String)
deriving DecidableEq, Repr

namespace SourceFailure

/-- The failure in the words of the operating system. -/
def message : SourceFailure → String
  | missing => "No such file or directory (os error 2)"
  | denied => "Permission denied (os error 13)"
  | notDirectory => "Not a directory (os error 20)"
  | directory => "Is a directory (os error 21)"
  | nameTooLong => "File name too long (os error 36)"
  | notUtf8 => "stream did not contain valid UTF-8"
  | other reason => reason

end SourceFailure

/-- The text that bytes encode. -/
def decodeSource (content : ByteArray) : Except SourceFailure String :=
  match String.fromUTF8? content with
  | some text => .ok text
  | none => .error .notUtf8

namespace Response

/-- The program's name and version. -/
def version : Response :=
  ⟨0, "molybdenum 0.1.0\n", ""⟩

/-- The response to arguments that make no sense. -/
def misuse : Response :=
  ⟨2, "", "error: unexpected or repeated argument\n"⟩

/-- The response to a source that cannot be had. -/
def unreadable (name : String) (failure : SourceFailure) : Response :=
  ⟨2, "", "error: could not read " ++ name ++ ": " ++ failure.message ++ "\n"⟩

/-- The reports of diagnostics, with an empty line after each. -/
def reports (diagnostics : List Diagnostic) (source name : String) : String :=
  String.join (diagnostics.map fun diagnostic => diagnostic.report source name ++ "\n\n")

/-- Lines of text, each with its line end. -/
def lines (texts : List String) : String :=
  String.join (texts.map (· ++ "\n"))

/-- The response to a check of the text `source`. -/
def ofSource (options : CheckOptions) (source : String) : Response :=
  match tokenize source with
  | .error diagnostic => ⟨2, "", reports [diagnostic] source options.sourceName⟩
  | .ok tokens =>
    let compilation := Compilation.ofTokens options.checks tokens
    ⟨if compilation.isClean then 0 else 1,
      (if options.showTokens then lines (tokens.map Token.render) else "") ++
        (if options.showTree then compilation.program.render else ""),
      reports compilation.diagnostics source options.sourceName⟩

/-- The response to a check, given the content of the source or why it cannot be had. -/
def ofContent (options : CheckOptions) (content : Except SourceFailure ByteArray) : Response :=
  match content.bind decodeSource with
  | .error failure => unreadable options.sourceName failure
  | .ok source => ofSource options source

end Response

end LineScript
