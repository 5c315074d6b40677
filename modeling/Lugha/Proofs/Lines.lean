import Lugha.Source
import Mathlib.Data.List.Basic
import Mathlib.Data.List.TakeWhile
import Mathlib.Tactic.Common

/-!
# Lines of a text

A line of a text is told by what stands around it: before it stand whole lines, each with the
newline that ends it, and after it stands such a newline or nothing.  Its number is one more than
the newlines before.  The pieces into which a text is cut are its lines, in their order, so a text
has one line more than newlines.

A source shows a line without the carriage returns at its end, and it has a line for every number
from one up to the number of its lines.
-/

namespace Lugha

namespace Text

/-- A line of a text and its number, counted from one. -/
inductive IsLine (number : Nat) (line text : List Char) : Prop
  | intro {before after : List Char} (htext : text = before ++ (line ++ after))
      (hnumber : number = before.count '\n' + 1) (hbefore : ∀ c ∈ before.getLast?, c = '\n')
      (hline : '\n' ∉ line) (hafter : ∀ c ∈ after.head?, c = '\n') : IsLine number line text

/-- The first piece of a text ends before its first newline. -/
lemma pieces_cons (c : Char) (cs : List Char) :
    pieces (c :: cs) = if c = '\n' then [] :: pieces cs else (pieces cs).modifyHead (c :: ·) := by
  have hne : pieces cs ≠ [] := by
    cases cs with
    | nil => exact List.cons_ne_nil _ _
    | cons d ds =>
      simp only [pieces, List.foldr_cons]
      split
      · exact List.cons_ne_nil _ _
      · split <;> exact List.cons_ne_nil _ _
  obtain ⟨l, ls, hls⟩ := List.exists_cons_of_ne_nil hne
  unfold pieces at hls ⊢
  rw [List.foldr_cons, hls, List.modifyHead_cons]

/-- There is one piece more than newlines. -/
lemma length_pieces (cs : List Char) : (pieces cs).length = cs.count '\n' + 1 := by
  induction cs with
  | nil => rfl
  | cons c cs ih =>
    rw [pieces_cons]
    split
    · next hc => rw [List.length_cons, ih, hc, List.count_cons_self]
    · next hc => rw [List.length_modifyHead, ih, List.count_cons_of_ne hc]

namespace IsLine

variable {number : Nat} {line text : List Char}

/-- The first line of a text. -/
lemma first {after : List Char} (hline : '\n' ∉ line) (hafter : ∀ c ∈ after.head?, c = '\n') :
    IsLine 1 line (line ++ after) :=
  @IsLine.intro 1 line _ [] after rfl rfl (by simp) hline hafter

/-- A text with a newline before it has the same lines, after an empty one. -/
lemma newline (h : IsLine number line text) : IsLine (number + 1) line ('\n' :: text) := by
  obtain ⟨rfl, rfl, hbefore, hline, hafter⟩ := h
  rename_i before after
  refine .intro (List.cons_append ..).symm ?_ ?_ hline hafter
  · rw [List.count_cons_self]
  · cases before with
    | nil =>
      rintro c ⟨⟩
      rfl
    | cons d ds => exact hbefore

/-- A character before a text is put to its first line. -/
lemma cons_first {c : Char} (h : IsLine 1 line text) (hc : c ≠ '\n') :
    IsLine 1 (c :: line) (c :: text) := by
  obtain ⟨rfl, hnumber, hbefore, hline, hafter⟩ := h
  rename_i before after
  -- nothing stands before the first line
  have hnil : before = [] := by
    by_contra hne
    have hmem := List.getLast_mem hne
    rw [hbefore _ (List.getLast?_eq_some_getLast hne)] at hmem
    have hpos := List.count_pos_iff.2 hmem
    omega
  subst hnil
  refine first ?_ hafter
  exact fun hmem => (List.mem_cons.1 hmem).elim (fun heq => hc heq.symm) hline

/-- A character before a text leaves the lines after the first one. -/
lemma cons_later {c : Char} (h : IsLine (number + 2) line text) (hc : c ≠ '\n') :
    IsLine (number + 2) line (c :: text) := by
  obtain ⟨rfl, hnumber, hbefore, hline, hafter⟩ := h
  rename_i before after
  refine .intro (List.cons_append ..).symm ?_ ?_ hline hafter
  · rw [List.count_cons_of_ne hc, hnumber]
  · cases before with
    | nil => simp at hnumber
    | cons d ds => exact hbefore

end IsLine

/-- The pieces of a text are its lines. -/
lemma isLine_of_getElem? {cs line : List Char} {i : Nat} (h : (pieces cs)[i]? = some line) :
    IsLine (i + 1) line cs := by
  induction cs generalizing i line with
  | nil =>
    obtain ⟨rfl, rfl⟩ : i = 0 ∧ [] = line := by
      cases i with
      | zero => exact ⟨rfl, Option.some.inj h⟩
      | succ i => cases h
    exact .first List.not_mem_nil (by simp)
  | cons c cs ih =>
    rw [pieces_cons] at h
    split at h
    · next hc =>
      subst hc
      cases i with
      | zero =>
        obtain rfl := Option.some.inj h
        exact .first List.not_mem_nil (by simp)
      | succ i => exact (ih h).newline
    · next hc =>
      cases hpieces : pieces cs with
      | nil =>
        rw [hpieces] at h
        cases h
      | cons l ls =>
        rw [hpieces] at h ih
        cases i with
        | zero =>
          obtain rfl := Option.some.inj h
          exact (ih rfl).cons_first hc
        | succ i => exact (ih h).cons_later hc

/-- A line is shown without the carriage returns at its end. -/
lemma dropReturns_spec (line : List Char) :
    (∃ k, line = dropReturns line ++ List.replicate k '\r') ∧
      ∀ c ∈ (dropReturns line).getLast?, c ≠ '\r' := by
  constructor
  · refine ⟨(line.reverse.takeWhile (· == '\r')).length, ?_⟩
    have hreturns : line.reverse.takeWhile (· == '\r') =
        List.replicate (line.reverse.takeWhile (· == '\r')).length '\r' :=
      List.eq_replicate_iff.2 ⟨rfl, fun c hc => by simpa using List.mem_takeWhile_imp hc⟩
    have hsplit := congrArg List.reverse
      (List.takeWhile_append_dropWhile (p := (· == '\r')) (l := line.reverse))
    rw [List.reverse_append, List.reverse_reverse, hreturns, List.reverse_replicate] at hsplit
    exact hsplit.symm
  · intro c hc
    rw [dropReturns, List.getLast?_reverse, Option.mem_def] at hc
    have hnot := List.head?_dropWhile_not (· == '\r') line.reverse
    rw [hc] at hnot
    simpa using hnot

end Text

/-- A source has as many lines as newlines, and one more. -/
lemma Source.lineCount_eq (s : Source) : s.lineCount = s.text.toList.count '\n' + 1 :=
  Text.length_pieces _

/-- A source has a line for every number up to the number of its lines. -/
lemma Source.exists_line {s : Source} {n : Nat} (hpos : 1 ≤ n) (hle : n ≤ s.lineCount) :
    ∃ line, Text.IsLine n line s.text.toList ∧
      s.line? n = some (String.ofList (Text.dropReturns line)) := by
  obtain ⟨i, rfl⟩ : ∃ i, n = i + 1 := ⟨n - 1, by omega⟩
  have hget : s.lines[i]? = some s.lines[i] := List.getElem?_eq_getElem hle
  refine ⟨_, Text.isLine_of_getElem? hget, ?_⟩
  rw [Source.line?, if_neg (Nat.succ_ne_zero i), Nat.add_sub_cancel, hget, Option.map_some]

end Lugha
