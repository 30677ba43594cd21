import LineScript.Parsing.Statement

/-!
# Parsing

The rules of a grammar are tied together here.  `Grammar.parts` gives the parsers
for the parts of a construct when rules may call each other to a given depth, and
`Cursor.depth` is a depth that suffices for the tokens to come: between two moves of
the cursor only a few rules call each other.
-/

namespace LineScript

namespace Grammar

/-- The parsers for the parts of a construct whose rules call each other at most
`depth` deep. -/
def parts (grammar : Grammar) : Nat → Parts
  | 0 => Parts.exhausted
  | depth + 1 =>
    { expression := fun minimum cursor =>
        Parser.expression grammar (grammar.parts depth) minimum cursor
      operators := fun minimum left cursor =>
        Parser.operators grammar (grammar.parts depth) minimum left cursor
      arguments := fun cursor => Parser.arguments (grammar.parts depth) cursor
      parameters := fun cursor => Parser.parameters (grammar.parts depth) cursor
      statements := fun cursor => Parser.statements grammar (grammar.parts depth) cursor
      program := fun cursor => Parser.program grammar (grammar.parts depth) cursor }

end Grammar

namespace Cursor

/-- How deep the rules of a grammar call each other at most from here on. -/
def depth (cursor : Cursor) : Nat :=
  8 * (cursor.upcoming.length + 4)

/-- The parsers for the parts of a construct that begins here. -/
def parts (cursor : Cursor) (grammar : Grammar) : Parts :=
  grammar.parts cursor.depth

end Cursor

/-- A program and the diagnostics that were recorded while it was parsed. -/
structure Parsed where
  program : Program
  diagnostics : List Diagnostic

/-- The program that a token list spells in `grammar`.  A list that does not close
with an end of input is given one.  Every list has a program: what is broken is
recorded and left out. -/
def parseIn (grammar : Grammar) (tokens : List Token) : Parsed :=
  let cursor := Cursor.ofTokens tokens
  let outcome := Parser.program grammar (cursor.parts grammar) cursor
  match outcome.verdict with
  | .success statements => ⟨⟨statements⟩, outcome.recorded⟩
  | .failure diagnostic => ⟨⟨[]⟩, outcome.recorded ++ [diagnostic]⟩
  | .exhausted => ⟨⟨[]⟩, outcome.recorded⟩

/-- The program that a token list spells in the standard grammar. -/
def parse (tokens : List Token) : Parsed :=
  parseIn .standard tokens

end LineScript
