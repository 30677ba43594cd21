import LineScript.Token

/-!
# Words

A run of letters is a keyword, the name of a built-in type, a truth value or, when
it is none of these, an identifier.  The three lists have no word in common.
-/

namespace LineScript

namespace Word

/-- The reserved words and their kinds. -/
def keywords : List (String × TokenKind) :=
  [("var", .kwVar), ("if", .kwIf), ("else", .kwElse), ("for", .kwFor), ("while", .kwWhile),
    ("return", .kwReturn), ("break", .kwBreak), ("continue", .kwContinue), ("as", .kwAs),
    ("func", .kwFunc), ("efunc", .kwEfunc), ("mfunc", .kwMfunc)]

/-- The names of the built-in types. -/
def builtinTypes : List String :=
  ["string", "int", "float", "double", "bool"]

/-- Every word with a meaning of its own. -/
def meanings : List (String × TokenKind) :=
  keywords ++ builtinTypes.map (·, .typeName) ++ [("true", .trueLiteral), ("false", .falseLiteral)]

/-- The kind of the token that a run of letters makes. -/
def kind (word : String) : TokenKind :=
  (meanings.lookup word).getD .identifier

end Word

end LineScript
