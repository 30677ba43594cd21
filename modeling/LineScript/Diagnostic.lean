import LineScript.Entrypoint
import LineScript.Text.Quoted
import LineScript.Token

/-!
# Diagnostics

A diagnostic is a cause and the position it points at.  Causes are data: their
wording, and the tip that some of them come with, are given here once.
-/

namespace LineScript

/-- What can be wrong with a program. -/
inductive Cause where
  | unreadableSource (reason : String)
  | expectedToken (expected received : TokenKind)
  | noPrefixRule (kind : TokenKind)
  | notAnInteger (text : String)
  | alreadyDefined (name : String)
  | unknownEntrypoint (name : String)
  | typeMismatch (name declared assigned : String)
deriving DecidableEq, Repr

namespace Cause

/-- The cause in words. -/
def message : Cause → String
  | unreadableSource reason => "unreadable source: " ++ reason
  | expectedToken expected received => "expected " ++ expected.name ++ ", got " ++ received.name
  | noPrefixRule kind => "no prefix parse function for " ++ kind.name ++ " found"
  | notAnInteger text => "could not parse " ++ quoted text ++ " as integer"
  | alreadyDefined name => "already defined " ++ name
  | unknownEntrypoint name => "unknown entrypoint name " ++ name
  | typeMismatch name declared assigned =>
    "type mismatch: " ++ name ++ " declared as " ++ declared ++ ", assigned " ++ assigned

/-- What the author of the program may have meant. -/
def tip : Cause → Option String
  | expectedToken .closeCurly _ => some "is a `\x7d` missing?"
  | expectedToken .closeParen _ => some "is a `)` missing?"
  | noPrefixRule .illegal => some "this character is not part of the language"
  | noPrefixRule .newline => some "the statement ends before its value"
  | notAnInteger _ => some "is it above the integer limit?"
  | unknownEntrypoint _ => some ("entrypoint names are: " ++ ", ".intercalate Entrypoint.names)
  | _ => none

/-- Whether nothing can be made of the source: every other cause leaves a program to go on with. -/
def isFatal : Cause → Bool
  | unreadableSource _ => true
  | _ => false

end Cause

/-- A cause and where it was found. -/
structure Diagnostic where
  cause : Cause
  position : Position
deriving DecidableEq, Repr

end LineScript
