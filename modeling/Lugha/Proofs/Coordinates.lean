import Lugha.Span
import Mathlib.Data.List.Basic
import Mathlib.Data.List.Induction
import Mathlib.Tactic.Common

/-!
# Coordinates of characters

Reading moves a position on by one step for each character.  `Position.following` says by
counting where that leads: the line is one more than the newlines before, the column is one more
than the characters after the last of them.

Text order is a linear order, and reading on leads to a strictly later place.  So the characters
of a text have coordinates that increase, and a span delimits a piece of the text, its slice.
The slice that goes from the first to the last character of a piece is that piece.
-/

namespace Lugha

namespace Position

/-! ### Text order -/

/-- Strict text order: by line, then by column. -/
def Precedes (p q : Position) : Prop :=
  p.line < q.line ∨ p.line = q.line ∧ p.column < q.column

instance (p q : Position) : Decidable (p.Precedes q) :=
  inferInstanceAs (Decidable (_ ∨ _ ∧ _))

section Order

variable {p q r : Position}

/-- Text order is reflexive. -/
lemma Before.refl (p : Position) : p.Before p := .inr ⟨rfl, Nat.le_refl _⟩

/-- Text order is transitive. -/
lemma Before.trans (h : p.Before q) (h' : q.Before r) : p.Before r := by
  unfold Before at *
  omega

/-- A place that strictly precedes another is before it. -/
lemma Precedes.before (h : p.Precedes q) : p.Before q := by
  unfold Precedes at h
  unfold Before
  omega

/-- A place that strictly precedes another is before everything that comes after that. -/
lemma Precedes.trans_before (h : p.Precedes q) (h' : q.Before r) : p.Precedes r := by
  unfold Precedes at *
  unfold Before at h'
  omega

/-- Of two places one is before the other or strictly precedes it. -/
lemma not_before : ¬ p.Before q ↔ q.Precedes p := by
  unfold Before Precedes
  omega

/-- The earlier of two places, if they are in order. -/
lemma earlier_eq_left (h : p.Before q) : p.earlier q = p := if_pos h

/-- The later of two places, if they are in order. -/
lemma later_eq_right (h : p.Before q) : p.later q = q := if_pos h

/-! ### Reading on -/

/-- A character is read on to a later place. -/
lemma precedes_step (p : Position) (c : Char) : p.Precedes (p.step c) := by
  unfold step Precedes
  split
  · exact .inl (Nat.lt_succ_self _)
  · exact .inr ⟨rfl, Nat.lt_succ_self _⟩

/-- Text is read on to a place that is not earlier. -/
lemma before_past (p : Position) (cs : List Char) : p.Before (p.past cs) := by
  induction cs generalizing p with
  | nil => exact .refl p
  | cons c cs ih => exact (p.precedes_step c).before.trans (ih (p.step c))

/-- Text that is not empty is read on to a later place. -/
lemma precedes_past (p : Position) {cs : List Char} (h : cs ≠ []) : p.Precedes (p.past cs) := by
  cases cs with
  | nil => exact absurd rfl h
  | cons c cs => exact (p.precedes_step c).trans_before ((p.step c).before_past cs)

/-- Going back from a later place does not lead before the place. -/
lemma Precedes.before_back (h : p.Precedes q) : p.Before q.back := by
  unfold Precedes at h
  simp only [back, Before]
  omega

/-- Going back leads to an earlier place, except at the beginning of a line. -/
lemma back_precedes (h : 1 < p.column) : p.back.Precedes p := by
  refine .inr ⟨rfl, ?_⟩
  simp only [back]
  omega

end Order

/-- Columns are counted from one. -/
lemma column_past_pos {p : Position} (h : 0 < p.column) (cs : List Char) :
    0 < (p.past cs).column := by
  induction cs generalizing p with
  | nil => exact h
  | cons c cs ih =>
    refine ih ?_
    unfold step
    split
    · exact Nat.one_pos
    · exact Nat.succ_pos _

/-- Going back from behind a character of a line leads to that character. -/
lemma back_step {p : Position} {c : Char} (hp : 0 < p.column) (hc : c ≠ '\n') :
    (p.step c).back = p := by
  rw [step, if_neg hc, back]
  congr 1
  exact Nat.max_eq_left hp

/-- Behind a character that ends no line, the column is not the first one. -/
lemma one_lt_column_step {p : Position} {c : Char} (hp : 0 < p.column) (hc : c ≠ '\n') :
    1 < (p.step c).column := by
  rw [step, if_neg hc]
  exact Nat.succ_lt_succ hp

/-! ### Counting -/

/-- The coordinate of the character that follows the given text: lines and columns are counted
from one. -/
def following (before : List Char) : Position :=
  ⟨before.count '\n' + 1, (before.reverse.takeWhile (· ≠ '\n')).length + 1⟩

/-- Reading leads to the place that is found by counting. -/
lemma past_origin (before : List Char) : origin.past before = following before := by
  induction before using List.reverseRecOn with
  | nil => rfl
  | append_singleton before c ih =>
    rw [past_append, ih, past_cons, past_nil, step]
    split
    · next hc => simp [following, hc]
    · next hc => simp [following, hc]

/-- What follows more text has a coordinate that is not earlier. -/
lemma following_before (before cs : List Char) :
    (following before).Before (following (before ++ cs)) := by
  rw [← past_origin, ← past_origin, past_append]
  exact before_past ..

/-- What follows a text has a later coordinate than the text. -/
lemma following_precedes (before : List Char) {cs : List Char} (h : cs ≠ []) :
    (following before).Precedes (following (before ++ cs)) := by
  rw [← past_origin, ← past_origin, past_append]
  exact precedes_past _ h

end Position

/-! ### Slices -/

/-- The characters after the given text with their coordinates. -/
def coordinates (before : List Char) : List Char → List (Position × Char)
  | [] => []
  | c :: cs => (.following before, c) :: coordinates (before ++ [c]) cs

/-- Whether a position lies in a span; both ends are included. -/
def Span.Holds (s : Span) (p : Position) : Prop := s.first.Before p ∧ p.Before s.last

instance (s : Span) (p : Position) : Decidable (s.Holds p) :=
  inferInstanceAs (Decidable (_ ∧ _))

/-- The piece of a text that a span delimits: the characters whose coordinates lie in it. -/
def Span.slice (s : Span) (text : List Char) : List Char :=
  ((coordinates [] text).filter fun x => s.Holds x.1).map Prod.snd

/-- The span from the first to the last character of a piece of text, where the given text
stands before it. -/
def Span.around (before piece : List Char) : Span :=
  ⟨.following before, .following (before ++ piece.dropLast)⟩

/-- The characters of two texts, one after the other. -/
lemma coordinates_append (before cs ds : List Char) :
    coordinates before (cs ++ ds) = coordinates before cs ++ coordinates (before ++ cs) ds := by
  induction cs generalizing before with
  | nil => simp [coordinates]
  | cons c cs ih => simp [coordinates, ih]

/-- Coordinates do not change the characters. -/
lemma coordinates_map_snd (before cs : List Char) :
    (coordinates before cs).map Prod.snd = cs := by
  induction cs generalizing before with
  | nil => rfl
  | cons c cs ih => rw [coordinates, List.map_cons, ih]

/-- The coordinate of a character counts the text before it. -/
lemma eq_following_of_mem {before cs : List Char} {x : Position × Char}
    (h : x ∈ coordinates before cs) :
    ∃ xs ys, cs = xs ++ x.2 :: ys ∧ x.1 = .following (before ++ xs) := by
  induction cs generalizing before with
  | nil => cases h
  | cons c cs ih =>
    rcases List.mem_cons.1 h with rfl | h
    · exact ⟨[], cs, rfl, by rw [List.append_nil]⟩
    · obtain ⟨xs, ys, rfl, hx⟩ := ih h
      exact ⟨c :: xs, ys, rfl, by simpa using hx⟩

/-- What follows a piece of text has a later coordinate than the last character of the piece. -/
lemma Span.around_last_precedes (before after : List Char) {piece : List Char} (h : piece ≠ []) :
    (Span.around before piece).last.Precedes (.following (before ++ piece ++ after)) := by
  have hsplit : before ++ piece ++ after =
      before ++ piece.dropLast ++ piece.getLast h :: after := by
    conv_lhs => rw [← List.dropLast_append_getLast h]
    simp
  rw [Span.around, hsplit]
  exact Position.following_precedes _ (List.cons_ne_nil _ _)

/-- The slice from the first to the last character of a piece of text is that piece. -/
lemma Span.slice_around (before after : List Char) {piece : List Char} (h : piece ≠ []) :
    (Span.around before piece).slice (before ++ piece ++ after) = piece := by
  have hearlier : ∀ x ∈ coordinates [] before, ¬ (Span.around before piece).Holds x.1 := by
    rintro x hx ⟨hfirst, -⟩
    obtain ⟨xs, ys, rfl, heq⟩ := eq_following_of_mem hx
    rw [heq, List.nil_append] at hfirst
    exact Position.not_before.2 (Position.following_precedes xs (List.cons_ne_nil _ _)) hfirst
  have hinside : ∀ x ∈ coordinates before piece, (Span.around before piece).Holds x.1 := by
    intro x hx
    obtain ⟨xs, ys, rfl, heq⟩ := eq_following_of_mem hx
    rw [heq]
    refine ⟨Position.following_before .., ?_⟩
    -- the text before `x` is a beginning of the text before the last character
    rw [Span.around, List.dropLast_append_of_ne_nil (List.cons_ne_nil _ _), ← List.append_assoc]
    exact Position.following_before ..
  have hlater : ∀ x ∈ coordinates (before ++ piece) after,
      ¬ (Span.around before piece).Holds x.1 := by
    rintro x hx ⟨-, hlast⟩
    obtain ⟨xs, ys, rfl, heq⟩ := eq_following_of_mem hx
    rw [heq] at hlast
    exact Position.not_before.2 (around_last_precedes before xs h) hlast
  rw [Span.slice, coordinates_append, coordinates_append, List.filter_append, List.filter_append,
    List.filter_eq_nil_iff.2 (by simpa using hearlier),
    List.filter_eq_self.2 (by simpa using hinside),
    List.filter_eq_nil_iff.2 (by simpa using hlater)]
  simp [coordinates_map_snd]

/-- The span of text that was read over goes from its first to its last character, if that ends
no line. -/
lemma Span.upTo_past (before : List Char) {piece : List Char} (h : piece ≠ [])
    (hlast : ∀ c ∈ piece.getLast?, c ≠ '\n') :
    Span.upTo (Position.origin.past before) (Position.origin.past (before ++ piece)) =
      .around before piece := by
  have hc : piece.getLast h ≠ '\n' := hlast _ (List.getLast?_eq_some_getLast h)
  have hcolumn : 0 < (Position.origin.past (before ++ piece.dropLast)).column :=
    Position.column_past_pos Nat.one_pos _
  conv_lhs => rw [← List.dropLast_append_getLast h, ← List.append_assoc, Position.past_append]
  rw [Position.past_cons, Position.past_nil, Span.upTo, Position.back_step hcolumn hc, Span.around,
    Position.past_origin, Position.past_origin]

end Lugha
