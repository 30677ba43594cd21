import LineScript.Text.Unprintable

/-!
# Quoted text

A message quotes a piece of source so that every character of it can be seen:
between double quotes, with the quote, the backslash and four controls written as
a backslash and a letter, and every other unprintable character as its code point
in hexadecimal.  A single quote stands for itself.
-/

namespace LineScript

namespace Quoted

/-- The character written as its code point in lower-case hexadecimal, without leading zeros. -/
def codePointEscape (c : Char) : List Char :=
  ['\\', 'u', '\x7b'] ++ Nat.toDigits 16 c.toNat ++ ['\x7d']

/-- One character as it stands between the quotes. -/
def escape (c : Char) : List Char :=
  if c = '\x00' then ['\\', '0']
  else if c = '\t' then ['\\', 't']
  else if c = '\n' then ['\\', 'n']
  else if c = '\r' then ['\\', 'r']
  else if c = '"' ∨ c = '\\' then ['\\', c]
  else if isUnprintable c then codePointEscape c
  else [c]

end Quoted

/-- `text` in double quotes, with its invisible characters made visible. -/
def quoted (text : String) : String :=
  String.ofList ('"' :: (text.toList.flatMap Quoted.escape ++ ['"']))

end LineScript
