import Lugha.Session
import Mathlib.Data.List.Basic
import Mathlib.Tactic.Common

/-!
# How lines are gathered into pieces of input

`chunks` adds one line after the other to a text and gives it out once it is complete.  It looks at
the text only.  Where a piece of input begins is not written down: a line begins one if nothing has
been gathered.  Adding a line can change what the lines before it mean, since a text between quotes
or a comment may go on from one line to the next.

Still each line ends up in one piece.  The pieces are groups of lines that stand one after the
other.  Each group is complete, and it is the first one that is, among those that begin where it
begins.  The lines that are left over begin no complete group.  A session evaluates the pieces in
their order, up to the first command that ends it.
-/

namespace Lugha

/-! ### Groups of lines -/

/-- No group at the beginning of some lines is a complete piece of input. -/
def Unfinished (lines : List String) : Prop :=
  ∀ front, front <+: lines → front ≠ [] → isComplete ("\n".intercalate front) = false

/-- Lines are a complete piece of input, and become so with the last of them. -/
structure CompleteAtLast (group : List String) : Prop where
  ne_nil : group ≠ []
  complete : isComplete ("\n".intercalate group) = true
  earlier : ∀ front, front <+: group → front ≠ [] → front ≠ group →
    isComplete ("\n".intercalate front) = false

/-- Nothing is open in an empty text. -/
lemma isComplete_empty : isComplete "" = true := by decide +kernel

/-- There is nothing at the beginning of no lines. -/
lemma unfinished_nil : Unfinished [] :=
  fun _ hfront hne => absurd (List.prefix_nil.1 hfront) hne

namespace Unfinished

variable {lines : List String}

/-- A text is empty only as long as nothing has been gathered: an empty one would be complete. -/
lemma addLine_eq (h : Unfinished lines) (line : String) :
    addLine ("\n".intercalate lines) line = "\n".intercalate (lines ++ [line]) := by
  by_cases hlines : lines = []
  · subst hlines
    rw [String.intercalate_nil, List.nil_append, String.intercalate_singleton]
    rfl
  · have hne : ("\n".intercalate lines).isEmpty = false := by
      rw [String.isEmpty_eq_false_iff]
      intro hempty
      have hopen := h lines (List.prefix_refl _) hlines
      rw [hempty, isComplete_empty] at hopen
      cases hopen
    rw [addLine, hne, String.intercalate_append_of_ne_nil hlines (List.cons_ne_nil _ _),
      String.intercalate_singleton]
    rfl

/-- One line more that does not complete the lines. -/
lemma concat (h : Unfinished lines) {line : String}
    (hline : isComplete ("\n".intercalate (lines ++ [line])) = false) :
    Unfinished (lines ++ [line]) := by
  intro front hfront hne
  rcases List.prefix_concat_iff.1 hfront with rfl | hearlier
  · exact hline
  · exact h front hearlier hne

/-- One line more that completes the lines. -/
lemma completeAtLast (h : Unfinished lines) {line : String}
    (hline : isComplete ("\n".intercalate (lines ++ [line])) = true) :
    CompleteAtLast (lines ++ [line]) where
  ne_nil := List.concat_ne_nil _ _
  complete := hline
  earlier := by
    intro front hfront hne hproper
    rcases List.prefix_concat_iff.1 hfront with rfl | hearlier
    · exact absurd rfl hproper
    · exact h front hearlier hne

end Unfinished

/-- Lines are gathered into groups, and none is lost. -/
lemma exists_groups_chunks {gathered : List String} (h : Unfinished gathered)
    (lines : List String) :
    ∃ (groups : List (List String)) (rest : List String),
      gathered ++ lines = groups.flatten ++ rest ∧
      chunks ("\n".intercalate gathered) lines = groups.map "\n".intercalate ∧
      (∀ group ∈ groups, CompleteAtLast group) ∧ Unfinished rest := by
  induction lines generalizing gathered with
  | nil => exact ⟨[], gathered, List.append_nil _, rfl, List.forall_mem_nil _, h⟩
  | cons line lines ih =>
    rw [chunks, h.addLine_eq]
    split
    · next hcomplete =>
      obtain ⟨groups, rest, hlines, hchunks, hgroups, hrest⟩ := ih unfinished_nil
      refine ⟨(gathered ++ [line]) :: groups, rest, ?_, ?_, ?_, hrest⟩
      · rw [List.flatten_cons, List.append_assoc, List.append_assoc, ← hlines]
        rfl
      · rw [List.map_cons, ← hchunks]
        rfl
      · exact List.forall_mem_cons.2 ⟨h.completeAtLast hcomplete, hgroups⟩
    · next hopen =>
      obtain ⟨groups, rest, hlines, hchunks⟩ := ih (h.concat (Bool.not_eq_true _ ▸ hopen))
      refine ⟨groups, rest, ?_, hchunks⟩
      rw [← hlines, List.append_assoc]
      rfl

/-! ### What a session evaluates -/

namespace Session

/-- The pieces of input that a session evaluates, up to the one that ends it, and what comes of
each. -/
def exchanges (s : Session) : List String → List (String × Outcome)
  | [] => []
  | input :: inputs =>
    (input, (s.eval input).1) ::
      if (s.eval input).1.isExit then [] else (s.eval input).2.exchanges inputs

/-- A session shows what comes of the pieces that it evaluates. -/
lemma converse_eq (s : Session) (inputs : List String) :
    s.converse inputs = String.join ((s.exchanges inputs).map (·.2.text)) := by
  induction inputs generalizing s with
  | nil => rfl
  | cons input inputs ih =>
    rw [converse, exchanges, List.map_cons, String.join_cons]
    generalize s.eval input = evaluated
    rcases evaluated with ⟨outcome, s'⟩
    have hfurther : outcome.text ++ s'.converse inputs =
        outcome.text ++ String.join ((s'.exchanges inputs).map (·.2.text)) := by rw [ih]
    cases outcome with
    | exit => rfl
    | empty => exact hfurther
    | evaluated output value => exact hfurther
    | malformed diagnostics => exact hfurther

/-- A piece of input that ends a session. -/
def IsExit (input : String) : Prop := Text.trim input ∈ exitCommands

/-- A session ends by its commands only. -/
lemma isExit_eval (s : Session) (input : String) :
    (s.eval input).1.isExit = true ↔ IsExit input := by
  rw [IsExit, eval]
  dsimp only
  split
  · next hempty =>
    rw [String.isEmpty_iff.1 hempty]
    exact iff_of_false Bool.false_ne_true (by decide)
  · split
    · next hexit => exact iff_of_true rfl (List.contains_iff_mem.1 hexit)
    · next hexit =>
      refine iff_of_false ?_ fun hmem => hexit (List.contains_iff_mem.2 hmem)
      split <;> exact Bool.false_ne_true

/-- A session evaluates all pieces of input if none of them ends it, or else those up to the first
one that does. -/
lemma exchanges_spec (s : Session) (inputs : List String) :
    (s.exchanges inputs).map (·.1) = inputs ∧ (∀ input ∈ inputs, ¬ IsExit input) ∨
      ∃ front command later, inputs = front ++ command :: later ∧
        (s.exchanges inputs).map (·.1) = front ++ [command] ∧
        (∀ input ∈ front, ¬ IsExit input) ∧ IsExit command := by
  induction inputs generalizing s with
  | nil => exact .inl ⟨rfl, List.forall_mem_nil _⟩
  | cons input inputs ih =>
    have hexit := s.isExit_eval input
    rw [exchanges]
    by_cases hinput : IsExit input
    · rw [if_pos (hexit.2 hinput)]
      exact .inr ⟨[], input, inputs, rfl, rfl, List.forall_mem_nil _, hinput⟩
    · rw [if_neg fun h => hinput (hexit.1 h), List.map_cons]
      rcases ih (s.eval input).2 with
        ⟨hall, hnone⟩ | ⟨front, command, later, hinputs, hpassed, hnone, hcommand⟩
      · exact .inl ⟨congrArg _ hall, List.forall_mem_cons.2 ⟨hinput, hnone⟩⟩
      · exact .inr ⟨input :: front, command, later, congrArg _ hinputs, congrArg _ hpassed,
          List.forall_mem_cons.2 ⟨hinput, hnone⟩, hcommand⟩

/-- A session that is given lines shows what comes of some pieces of input, and these are groups of
the lines.  The groups stand one after the other from the first line on, each is complete, and each
becomes so with its last line.  Either no group ends the session, and then what is left begins no
complete group, or the last one ends it and none before it does. -/
theorem exchanges_chunks (s : Session) (lines : List String) :
    s.converse (chunks "" lines) =
        String.join ((s.exchanges (chunks "" lines)).map (·.2.text)) ∧
      ∃ (groups : List (List String)) (rest : List String), lines = groups.flatten ++ rest ∧
        (s.exchanges (chunks "" lines)).map (·.1) = groups.map "\n".intercalate ∧
        (∀ group ∈ groups, CompleteAtLast group) ∧
        ((∀ group ∈ groups, ¬ IsExit ("\n".intercalate group)) ∧ Unfinished rest ∨
          ∃ front command, groups = front ++ [command] ∧
            (∀ group ∈ front, ¬ IsExit ("\n".intercalate group)) ∧
            IsExit ("\n".intercalate command)) := by
  refine ⟨s.converse_eq _, ?_⟩
  obtain ⟨groups, rest, hlines, hchunks, hgroups, hrest⟩ :=
    exists_groups_chunks unfinished_nil lines
  rw [String.intercalate_nil] at hchunks
  rw [List.nil_append] at hlines
  rcases s.exchanges_spec (chunks "" lines) with
    ⟨hall, hnone⟩ | ⟨front, command, later, hinputs, hpassed, hnone, hcommand⟩
  · refine ⟨groups, rest, hlines, hall.trans hchunks, hgroups, .inl ⟨?_, hrest⟩⟩
    rw [hchunks] at hnone
    exact fun group hgroup => hnone _ (List.mem_map_of_mem hgroup)
  · -- the groups after the command are not evaluated, so their lines are left over
    rw [hchunks] at hinputs
    obtain ⟨frontGroups, others, rfl, rfl, hothers⟩ := List.map_eq_append_iff.1 hinputs
    obtain ⟨commandGroup, laterGroups, rfl, rfl, -⟩ := List.map_eq_cons_iff.1 hothers
    refine ⟨frontGroups ++ [commandGroup], laterGroups.flatten ++ rest, ?_, ?_, ?_,
      .inr ⟨frontGroups, commandGroup, rfl, ?_, hcommand⟩⟩
    · rw [hlines]
      simp only [List.flatten_append, List.flatten_cons, List.flatten_nil, List.append_nil,
        List.append_assoc]
    · rw [hpassed, List.map_append]
      rfl
    · intro group hgroup
      apply hgroups
      rcases List.mem_append.1 hgroup with hfront | hlast
      · exact List.mem_append_left _ hfront
      · rw [List.mem_singleton.1 hlast]
        exact List.mem_append_right _ List.mem_cons_self
    · exact fun group hgroup => hnone _ (List.mem_map_of_mem hgroup)

end Session

end Lugha
