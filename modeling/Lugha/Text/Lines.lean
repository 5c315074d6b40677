/-!
# Lines of text

A text is cut into pieces at its newlines, and lines are written one after the other,
each with a newline at its end.
-/

namespace Lugha.Text

/-- The pieces of a text between its newlines. There is always at least one. -/
def pieces (cs : List Char) : List (List Char) :=
  cs.foldr
    (fun c ls =>
      if c = '\n' then [] :: ls
      else
        match ls with
        | [] => [[c]]
        | l :: rest => (c :: l) :: rest)
    [[]]

/-- A line without the carriage returns at its end. -/
def dropReturns (l : List Char) : List Char :=
  (l.reverse.dropWhile (· == '\r')).reverse

/-- Lines, each with its end. -/
def joinLines (ls : List String) : String := String.join (ls.map (· ++ "\n"))

end Lugha.Text
