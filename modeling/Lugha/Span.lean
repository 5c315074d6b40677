/-!
# Positions and spans

A position is a line and a column, both counted from one. A span is the pair of
positions at which a piece of text begins and ends, both included. Spans are
merged by taking the earlier beginning and the later end.
-/

namespace Lugha

/-- A place in a text. -/
structure Position where
  line : Nat
  column : Nat
deriving DecidableEq, Repr, Inhabited

namespace Position

/-- The position of the first character of a text. -/
def origin : Position := ⟨1, 1⟩

/-- The position after reading one character: a newline opens the next line. -/
def step (p : Position) (c : Char) : Position :=
  if c = '\n' then ⟨p.line + 1, 1⟩ else ⟨p.line, p.column + 1⟩

/-- The position after reading a piece of text. -/
def past (p : Position) (cs : List Char) : Position :=
  cs.foldl step p

/-- The last column before `p` on its own line, or the first column if there is none. -/
def back (p : Position) : Position :=
  ⟨p.line, max (p.column - 1) 1⟩

/-- Text order: by line, then by column. -/
def Before (p q : Position) : Prop :=
  p.line < q.line ∨ p.line = q.line ∧ p.column ≤ q.column

instance (p q : Position) : Decidable (p.Before q) :=
  inferInstanceAs (Decidable (_ ∨ _ ∧ _))

/-- The earlier of two positions. -/
def earlier (p q : Position) : Position :=
  if p.Before q then p else q

/-- The later of two positions. -/
def later (p q : Position) : Position :=
  if p.Before q then q else p

/-- The written form `line:column`. -/
def text (p : Position) : String :=
  toString p.line ++ ":" ++ toString p.column

@[simp] theorem past_nil (p : Position) : p.past [] = p := rfl

@[simp] theorem past_cons (p : Position) (c : Char) (cs : List Char) :
    p.past (c :: cs) = (p.step c).past cs := rfl

/-- Reading two pieces is reading the first and then the second. -/
theorem past_append (p : Position) (xs ys : List Char) :
    p.past (xs ++ ys) = (p.past xs).past ys := by
  simp [past]

end Position

/-- A piece of text, given by its first and its last position. -/
structure Span where
  first : Position
  last : Position
deriving DecidableEq, Repr, Inhabited

namespace Span

/-- The span that holds a single position. -/
def point (p : Position) : Span := ⟨p, p⟩

/-- The span of nodes that stand for no text. -/
def synthetic : Span := point ⟨0, 0⟩

/-- The least span that covers both. -/
def merge (s t : Span) : Span :=
  ⟨s.first.earlier t.first, s.last.later t.last⟩

/-- The span of text that begins at `p` and after which reading stands at `q`. -/
def upTo (p q : Position) : Span := ⟨p, q.back⟩

/-- A span is shown by its beginning. -/
def text (s : Span) : String := s.first.text

end Span

end Lugha
