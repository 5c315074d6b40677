import Lugha.ErrorList
import Mathlib.Data.List.Basic
import Mathlib.Tactic.Common

/-!
# What an error list stands for

An error list comes about by reports.  A single error may be reported to it, or all errors of
another list, which came about in the same way.  `ErrorHistory` says how, and tells the sequence of
all errors that were reported.

A list keeps the first errors of this sequence and counts all of them.  When the errors of a second
list are reported, those that it did not keep are not at hand any more and can only be counted.
They would not have been kept in any case, since as many as a list can keep stand before them.  So
reporting lists is putting their sequences one behind the other, and it has the laws of that.
-/

namespace Lugha

/-- How an error list came about: nothing was reported yet, one more error was reported, or all
errors of another list were. -/
inductive ErrorHistory (ε : Type) where
  | start
  | one (earlier : ErrorHistory ε) (e : ε)
  | all (earlier other : ErrorHistory ε)

namespace ErrorHistory

variable {ε : Type}

/-- The list that came about. -/
def list : ErrorHistory ε → ErrorList ε
  | start => .empty
  | one earlier e => earlier.list.push e
  | all earlier other => earlier.list.append other.list

/-- All errors that were reported, in their order. -/
def reported : ErrorHistory ε → List ε
  | start => []
  | one earlier e => earlier.reported ++ [e]
  | all earlier other => earlier.reported ++ other.reported

end ErrorHistory

namespace ErrorList

variable {ε : Type}

/-- The list that keeps the first errors of a sequence and counts all. -/
def ofReports (reports : List ε) : ErrorList ε :=
  ⟨reports.take capacity, reports.length⟩

/-- Reporting one more error. -/
lemma push_ofReports (reports : List ε) (e : ε) :
    (ofReports reports).push e = ofReports (reports ++ [e]) := by
  unfold push ofReports
  rw [mk.injEq, List.length_take, List.length_append, List.length_singleton]
  refine ⟨?_, rfl⟩
  split
  · next hroom =>
    have hlt : reports.length < capacity := by omega
    rw [List.take_of_length_le (Nat.le_of_lt hlt), List.take_of_length_le]
    rw [List.length_append, List.length_singleton]
    exact hlt
  · next hroom =>
    have hle : capacity ≤ reports.length := by omega
    exact (List.take_append_of_le_length hle).symm

/-- Reporting errors one after the other. -/
lemma foldl_push_ofReports (reports added : List ε) :
    added.foldl push (ofReports reports) = ofReports (reports ++ added) := by
  induction added generalizing reports with
  | nil => rw [List.foldl_nil, List.append_nil]
  | cons e added ih => rw [List.foldl_cons, push_ofReports, ih, List.append_assoc,
      List.singleton_append]

/-- Reporting the errors of a list: what it did not keep would not be kept here either. -/
lemma append_ofReports (reports added : List ε) :
    (ofReports reports).append (ofReports added) = ofReports (reports ++ added) := by
  have hkept : (reports ++ added.take capacity).take capacity =
      (reports ++ added).take capacity := by
    rw [List.take_append, List.take_append, List.take_take, Nat.min_eq_left (Nat.sub_le _ _)]
  have htotal : reports.length + min capacity added.length +
      (added.length - min capacity added.length) = reports.length + added.length := by omega
  have hfold : (ofReports added).kept.foldl push (ofReports reports) =
      ofReports (reports ++ added.take capacity) := foldl_push_ofReports _ _
  unfold append
  rw [hfold, ofReports, ofReports, ofReports, hkept]
  simp only [List.length_append, List.length_take, htotal]

/-- What a list says about a sequence of errors, if it stands for it: which errors it keeps, how
many there are, and that it counts each error that it keeps.  Whether it is full or has errors can
be seen from the sequence and from what is kept alike, and nothing is missing before it is full. -/
structure StandsFor (es : ErrorList ε) (reports : List ε) : Prop where
  kept : es.kept = reports.take capacity
  total : es.total = reports.length
  counted : es.kept.length ≤ es.total
  full : es.isFull = true ↔ es.kept.length = capacity
  full_reports : es.isFull = true ↔ capacity ≤ reports.length
  errors : es.hasErrors = true ↔ es.kept ≠ []
  errors_reports : es.hasErrors = true ↔ reports ≠ []
  whole : es.isFull = false → es.kept = reports

/-- The first errors and the number of all errors tell the rest. -/
lemma standsFor_ofReports (reports : List ε) : (ofReports reports).StandsFor reports where
  kept := rfl
  total := rfl
  counted := List.length_take_le' _ _
  full := by
    change decide (capacity ≤ reports.length) = true ↔ (reports.take capacity).length = capacity
    rw [decide_eq_true_iff, List.length_take]
    omega
  full_reports := decide_eq_true_iff
  errors := by
    have hcapacity : capacity ≠ 0 := by decide
    simp [hasErrors, ofReports, List.length_pos_iff, hcapacity]
  errors_reports := by
    simp [hasErrors, ofReports, List.length_pos_iff]
  whole := by
    intro hfull
    have hlt : reports.length < capacity := Nat.not_le.1 (of_decide_eq_false hfull)
    exact List.take_of_length_le (Nat.le_of_lt hlt)

end ErrorList

namespace ErrorHistory

variable {ε : Type}

/-- The list that came about keeps the first errors that were reported, and counts all. -/
lemma list_eq (h : ErrorHistory ε) : h.list = .ofReports h.reported := by
  induction h with
  | start => rfl
  | one earlier e ih => rw [list, reported, ih, ErrorList.push_ofReports]
  | all earlier other ih ih' => rw [list, reported, ih, ih', ErrorList.append_ofReports]

/-- However a list came about, it stands for the sequence of all errors that were reported.
Reporting lists to each other is associative, and a list without errors changes nothing, on either
side. -/
theorem list_standsFor_reported (a b c : ErrorHistory ε) :
    a.list.StandsFor a.reported ∧
      (a.list.append b.list).append c.list = a.list.append (b.list.append c.list) ∧
      a.list.append .empty = a.list ∧ ErrorList.empty.append a.list = a.list := by
  have hempty : ErrorList.empty = ErrorList.ofReports ([] : List ε) := rfl
  simp only [list_eq, hempty, ErrorList.append_ofReports, List.append_assoc, List.append_nil,
    List.nil_append, and_true]
  exact ErrorList.standsFor_ofReports _

end ErrorHistory

end Lugha
