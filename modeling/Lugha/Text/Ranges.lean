/-!
# Ranges of characters

A class of characters is given by the ranges of numbers that belong to it, in increasing
order. The tables of this library are those of Unicode 17.
-/

namespace Lugha.Text

/-- The first and the last number of every range of a class, in increasing order. -/
abbrev Ranges := List (Nat × Nat)

/-- Whether a number is in one of the ranges. No range after a greater one is looked at. -/
def Ranges.has (n : Nat) : Ranges → Bool
  | [] => false
  | (first, last) :: rest =>
    if n < first then false else if n ≤ last then true else Ranges.has n rest

end Lugha.Text
