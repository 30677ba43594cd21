import LineScript.Token

/-!
# Cursors into a token list

A parser sees the current token and the tokens to come.  It only ever moves
forward, and it stays on the last token once it is there, so looking ahead never
runs past the end.
-/

namespace LineScript

/-- The current token of a parser and the tokens after it. -/
structure Cursor where
  current : Token
  upcoming : List Token
deriving DecidableEq, Repr

namespace Cursor

/-- The tokens after `last` and `tokens`, closed by an end of input: one is added at
the position of the last token if the tokens do not close with one. -/
def closed (last : Token) : List Token → List Token
  | [] => if last.kind = .endOfInput then [] else [.endAt last.position]
  | token :: tokens => token :: closed token tokens

/-- A cursor at the first of `tokens`.  The last token that it reaches is an end of input. -/
def ofTokens : List Token → Cursor
  | [] => ⟨.endAt .nowhere, []⟩
  | token :: tokens => ⟨token, closed token tokens⟩

/-- The token after the current one; on the last token, that token again. -/
def peek (cursor : Cursor) : Token :=
  cursor.upcoming.headD cursor.current

/-- The cursor one token further, or where it is on the last token. -/
def advance (cursor : Cursor) : Cursor :=
  match cursor.upcoming with
  | [] => cursor
  | token :: tokens => ⟨token, tokens⟩

/-- The cursor where parsing can go on after a broken statement: at an end of input,
or at a line end or closing brace outside the braces opened on the way.  `depth`
counts these open braces. -/
def resync (depth : Nat) (current : Token) : List Token → Cursor
  | [] => ⟨current, []⟩
  | next :: others =>
    match current.kind, depth with
    | .endOfInput, _ | .newline, 0 | .closeCurly, 0 => ⟨current, next :: others⟩
    | .closeCurly, inner + 1 => resync inner next others
    | .openCurly, depth => resync (depth + 1) next others
    | _, depth => resync depth next others

end Cursor

end LineScript
