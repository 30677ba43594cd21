import LineScript.Text.CodePointRanges

/-!
# Blanks

Blanks separate lexemes.  A blank is a character with the Unicode property
White_Space; the line feed is one of them, although the lexer gives it a token.
-/

namespace LineScript

/-- The characters with the Unicode property White_Space. -/
def blankRanges : CodePointRanges := ⟨[
    (0x9, 0xd), (0x20, 0x20), (0x85, 0x85), (0xa0, 0xa0), (0x1680, 0x1680), (0x2000, 0x200a),
    (0x2028, 0x2029), (0x202f, 0x202f), (0x205f, 0x205f), (0x3000, 0x3000)]⟩

/-- Whether `c` is a blank. -/
def isBlank (c : Char) : Bool :=
  blankRanges.contains c

end LineScript
