/-!
# Error lists

An error list counts every error that is reported to it and keeps the first
twenty. It stands for the whole sequence of reported errors, cut off after
`ErrorList.capacity` of them.
-/

namespace Lugha

/-- The first errors of a sequence, and the length of the whole sequence. -/
structure ErrorList (ε : Type) where
  kept : List ε
  total : Nat
deriving Repr

namespace ErrorList

variable {ε δ : Type}

/-- How many errors are kept. -/
def capacity : Nat := 20

/-- No errors. -/
def empty : ErrorList ε := ⟨[], 0⟩

instance : Inhabited (ErrorList ε) := ⟨empty⟩

/-- Whether an error was reported. -/
def hasErrors (es : ErrorList ε) : Bool := decide (0 < es.total)

/-- Whether so many errors were reported that reading should stop. -/
def isFull (es : ErrorList ε) : Bool := decide (capacity ≤ es.total)

/-- Reports one more error; it is kept if there is room. -/
def push (es : ErrorList ε) (e : ε) : ErrorList ε :=
  ⟨if es.kept.length < capacity then es.kept ++ [e] else es.kept, es.total + 1⟩

/-- Reports the errors of a second list after those of the first. The errors that
the second list did not keep are only counted. -/
def append (es fs : ErrorList ε) : ErrorList ε :=
  let all := fs.kept.foldl push es
  { all with total := all.total + (fs.total - fs.kept.length) }

/-- Applies a function to every kept error. -/
def map (f : ε → δ) (es : ErrorList ε) : ErrorList δ :=
  ⟨es.kept.map f, es.total⟩

/-- A report is mapped with the errors before it. -/
theorem map_push (f : ε → δ) (es : ErrorList ε) (e : ε) :
    (es.push e).map f = (es.map f).push (f e) := by
  simp only [push, map, List.length_map]
  split <;> simp

end ErrorList

end Lugha
