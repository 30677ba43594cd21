import LineScript.Diagnostic
import LineScript.Text.Blank

/-!
# Reports

A report shows a diagnostic in its source: the message and the tip, the name of the
source, the line that the diagnostic points into without its indentation, and below
it an arrow whose head stands under the character at the reported column.
-/

namespace LineScript

namespace Report

/-- A line of the source, counted from one, without its line end.  There is no line zero. -/
def line? (source : List Char) (number : Nat) : Option (List Char) :=
  match number with
  | 0 => none
  | index + 1 =>
    (source.splitOn '\n')[index]?.map fun line => (line.reverse.dropWhile (· = '\r')).reverse

/-- Whether `c` indents a line. -/
def isIndent (c : Char) : Bool := c = ' ' || c = '\t'

/-- The cause in words, and the tip in parentheses if there is one. -/
def headline (cause : Cause) : String :=
  match cause.tip with
  | none => cause.message
  | some tip => cause.message ++ " (" ++ tip ++ ")"

/-- The bar that separates the line numbers, under a line number of `digits` digits. -/
def bar (digits : Nat) : List Char :=
  ['|'].leftpad (digits + 2) ' '

/-- The arrow to the column `column` of a line whose first `indent` columns are not
shown.  It has a head wherever it points. -/
def arrow (column indent : Nat) : List Char :=
  ['^'].leftpad (max (column - indent) 1) '-'

end Report

open Report in
/-- A line of a text, counted from one, without its line end. -/
def lineOf? (source : String) (number : UInt32) : Option String :=
  (line? source.toList number.toNat).map String.ofList

open Report in
/-- The report of a diagnostic in the source called `name`. -/
def Diagnostic.report (diagnostic : Diagnostic) (source name : String) : String :=
  let number := toString diagnostic.position.line.toNat
  let line := (line? source.toList diagnostic.position.line.toNat).getD []
  let shown := line.dropWhile isIndent
  let indent := line.length - shown.length
  "error: " ++ headline diagnostic.cause ++ "\n" ++
    "-> " ++ name ++ "\n" ++
    String.ofList (bar number.length) ++ "\n" ++
    number ++ " | " ++ String.ofList (shown.reverse.dropWhile isBlank).reverse ++ "\n" ++
    String.ofList (bar number.length) ++ " " ++
      String.ofList (arrow diagnostic.position.column.toNat indent)

end LineScript
