import Lugha.Span
import Lugha.Text.Lines

/-!
# Source texts and their lines

A source is a named text. Its lines are the pieces between newlines; a line is
shown without the carriage returns at its end.
-/

namespace Lugha

/-- A named program text. -/
structure Source where
  name : String
  text : String
deriving Repr, Inhabited

namespace Source

/-- The lines of a source, as they stand between its newlines. -/
def lines (s : Source) : List (List Char) :=
  Text.pieces s.text.toList

/-- How many lines a source has. -/
def lineCount (s : Source) : Nat :=
  s.lines.length

/-- The line of a given number, counted from one, without its final carriage returns. -/
def line? (s : Source) (n : Nat) : Option String :=
  if n = 0 then none
  else (s.lines[n - 1]?).map fun l => String.ofList (Text.dropReturns l)

end Source

end Lugha
