import LineScript.Parsing.Program
import LineScript.Report
import LineScript.Symbols.Verification
import LineScript.Token.Lexer

/-!
# Compilation

A source is tokenized, parsed and verified.  Only a source that cannot be read
stops this; everything else that is wrong is collected.
-/

namespace LineScript

/-- A program, what was wrong with its syntax, and what verification found. -/
structure Compilation where
  program : Program
  syntaxDiagnostics : List Diagnostic
  verificationDiagnostics : List Diagnostic

namespace Compilation

/-- All that is wrong with the program. -/
def diagnostics (compilation : Compilation) : List Diagnostic :=
  compilation.syntaxDiagnostics ++ compilation.verificationDiagnostics

/-- Whether nothing is wrong with the program. -/
def isClean (compilation : Compilation) : Bool :=
  compilation.diagnostics.isEmpty

/-- Parses and verifies tokens. -/
def ofTokens (checks : Checks) (tokens : List Token) : Compilation :=
  let parsed := parse tokens
  ⟨parsed.program, parsed.diagnostics, (verify checks parsed.program).diagnostics⟩

end Compilation

/-- Compiles a text. -/
def compile (checks : Checks) (source : String) : Except Diagnostic Compilation :=
  (tokenize source).map (Compilation.ofTokens checks)

end LineScript
