import LineScript.Position

/-!
# Tokens

A token is a lexeme with its kind, its text and the position of its first
character.  The kinds cover more than the grammar uses: some words and signs are
reserved, so that a program that uses them gets a diagnostic.
-/

namespace LineScript

/-- The kinds of token. -/
inductive TokenKind where
  | endOfInput
  | illegal
  | identifier
  | newline
  | integer
  | string
  | trueLiteral
  | falseLiteral
  | typeName
  | importDirective
  | openBracket
  | closeBracket
  | openCurly
  | closeCurly
  | openParen
  | closeParen
  | assignment
  | equals
  | exclamation
  | notEquals
  | less
  | greater
  | comma
  | dot
  | plus
  | dash
  | star
  | slash
  | percent
  | kwVar
  | kwIf
  | kwElse
  | kwFor
  | kwWhile
  | kwReturn
  | kwBreak
  | kwContinue
  | kwAs
  | kwFunc
  | kwEfunc
  | kwMfunc
deriving DecidableEq, Repr

namespace TokenKind

/-- The name by which messages and token listings call the kind. -/
def name : TokenKind → String
  | endOfInput => "EOF"
  | illegal => "Illegal"
  | identifier => "Identifier"
  | newline => "Newline"
  | integer => "Integer"
  | string => "String"
  | trueLiteral => "True"
  | falseLiteral => "False"
  | typeName => "TypeAnnotation"
  | importDirective => "Import"
  | openBracket => "OpenBracket"
  | closeBracket => "CloseBracket"
  | openCurly => "OpenCurly"
  | closeCurly => "CloseCurly"
  | openParen => "OpenParen"
  | closeParen => "CloseParen"
  | assignment => "Assignment"
  | equals => "Equals"
  | exclamation => "Not"
  | notEquals => "NotEquals"
  | less => "Less"
  | greater => "Greater"
  | comma => "Comma"
  | dot => "Dot"
  | plus => "Plus"
  | dash => "Dash"
  | star => "Star"
  | slash => "Slash"
  | percent => "Percent"
  | kwVar => "Var"
  | kwIf => "If"
  | kwElse => "Else"
  | kwFor => "For"
  | kwWhile => "While"
  | kwReturn => "Return"
  | kwBreak => "Break"
  | kwContinue => "Continue"
  | kwAs => "As"
  | kwFunc => "Func"
  | kwEfunc => "Efunc"
  | kwMfunc => "Mfunc"

end TokenKind

/-- A lexeme: its kind, its text and the position of its first character. -/
structure Token where
  kind : TokenKind
  text : String
  position : Position
deriving DecidableEq, Repr

namespace Token

/-- The token that ends a token list at `position`. -/
def endAt (position : Position) : Token :=
  ⟨.endOfInput, "EOF", position⟩

/-- Whether the kind of the token is one of `kinds`. -/
def isOneOf (token : Token) (kinds : List TokenKind) : Bool :=
  kinds.contains token.kind

/-- A line of a token listing: the position, the kind and, except for a line end, the text. -/
def render (token : Token) : String :=
  match token.kind with
  | .newline => token.position.render ++ " " ++ token.kind.name
  | _ => token.position.render ++ " " ++ token.kind.name ++ " " ++ token.text

end Token

end LineScript
