import Lugha.Eval
import Mathlib.Tactic.Common

/-!
# What the frames of a machine bind

An evaluation touches the frames of its scope, those of the functions that it calls and those
that it makes.  `Machine.Holds R P` says that the frames in a set `R` bind values with a
property `P` only, and that the set has all frames that are still to be made.  It is kept when
a name is bound to a value with the property, when a scope is made and when a function is
entered.
-/

namespace Lugha

/-- The bindings after a name is bound. -/
lemma Bindings.mem_insert {α : Type} {name : String} {v : α} {b : String × α} :
    ∀ {bs : Bindings α}, b ∈ bs.insert name v → b = (name, v) ∨ b ∈ bs
  | [], h => .inl (List.mem_singleton.1 h)
  | (n, w) :: rest, h => by
    unfold Bindings.insert at h
    have ih := @Bindings.mem_insert α name v b rest
    grind

/-- A name is bound by one of the bindings. -/
lemma Bindings.mem_of_get? {α : Type} {name : String} {v : α} :
    ∀ {bs : Bindings α}, bs.get? name = some v → (name, v) ∈ bs
  | [], h => nomatch h
  | (n, w) :: rest, h => by
    unfold Bindings.get? at h
    have ih := @Bindings.mem_of_get? α name v rest
    grind

/-- A bound name means what it was bound to last, and the other names mean what they meant. -/
lemma Bindings.get?_insert {α : Type} (name other : String) (v : α) :
    ∀ bs : Bindings α,
      (bs.insert name v).get? other = if other = name then some v else bs.get? other
  | [] => by
    by_cases h : other = name
    · simp [insert, get?, h]
    · simp [insert, get?, h, Ne.symm h]
  | (n, w) :: rest => by
    have ih := Bindings.get?_insert name other v rest
    unfold Bindings.insert
    grind [Bindings.get?]

/-- Binding a name changes one frame. -/
lemma Machine.frame_put (m : Machine) (i j : Nat) (name : String) (v : Value) :
    (m.put i name v).frame j =
      if i = j ∧ j < m.frames.size then (m.frame j).insert name v else m.frame j := by
  unfold frame put
  by_cases hj : j < m.frames.size
  · by_cases hi : i = j
    · simp [Array.getD, hj, hi, Array.getElem_modify]
    · simp [Array.getD, hj, hi, Array.getElem_modify]
  · simp [Array.getD, hj]

/-- A new frame binds nothing. -/
lemma Machine.frame_enclose (m : Machine) (s : Scope) (j : Nat) :
    (m.enclose s).2.frame j = m.frame j := by
  unfold frame enclose
  by_cases hj : j < m.frames.size
  · simp [Array.getD, hj, Array.getElem_push, Nat.lt_succ_of_lt hj]
  · by_cases hnew : j < m.frames.size + 1
    · have hlast : j = m.frames.size := by omega
      simp [Array.getD, hlast]
    · simp [Array.getD, hj, hnew]

/-- A frame that is not there binds nothing. -/
lemma Machine.frame_of_size_le {m : Machine} {i : Nat} (h : m.frames.size ≤ i) :
    m.frame i = [] := by
  simp [frame, Array.getD, Nat.not_lt.2 h]

/-- A set of frames that binds values with a property only and has all frames that are still
to be made. -/
structure Machine.Holds (R : Nat → Prop) (P : Value → Prop) (m : Machine) : Prop where
  bound : ∀ i, R i → ∀ b ∈ m.frame i, P b.2
  later : ∀ i, m.frames.size ≤ i → R i

namespace Machine.Holds

variable {R : Nat → Prop} {P : Value → Prop} {m : Machine}

/-- The frames of a scope that is yet to be made. -/
lemma newTop (P : Value → Prop) (m : Machine) :
    m.newTop.2.Holds (m.frames.size ≤ ·) P := by
  have hframe (i : Nat) : m.newTop.2.frame i = m.frame i := m.frame_enclose ⟨0, []⟩ i
  refine ⟨fun i hi b hb => ?_, fun i hi => ?_⟩
  · rw [hframe, frame_of_size_le hi] at hb
    cases hb
  · have hsize : m.newTop.2.frames.size = m.frames.size + 1 := by simp [Machine.newTop]
    omega

/-- What holds of frames holds of machines with the same frames. -/
lemma congr {m' : Machine} (h : m.Holds R P) (hframes : m'.frames = m.frames) :
    m'.Holds R P := by
  refine ⟨fun i hi b hb => h.bound i hi b ?_, fun i hi => h.later i (hframes ▸ hi)⟩
  unfold frame at hb ⊢
  rwa [← hframes]

/-- A name means something that is bound in one of the frames. -/
lemma find? (h : m.Holds R P) {name : String} {v : Value} :
    ∀ {chain : List Nat}, (∀ i ∈ chain, R i) → m.find? name chain = some v → P v
  | [], _, hv => nomatch hv
  | i :: outer, hchain, hv => by
    unfold Machine.find? at hv
    split at hv
    · next hget =>
      cases hv
      exact h.bound i (hchain i (.head _)) _ (Bindings.mem_of_get? hget)
    · exact h.find? (fun j hj => hchain j (.tail _ hj)) hv

/-- Binding a name to a value with the property. -/
lemma put (h : m.Holds R P) (i : Nat) (name : String) {v : Value} (hv : P v) :
    (m.put i name v).Holds R P := by
  refine ⟨fun j hj b hb => ?_, fun j hj => h.later j (by simpa [Machine.put] using hj)⟩
  rw [frame_put] at hb
  split at hb
  · rcases Bindings.mem_insert hb with rfl | hb
    · exact hv
    · exact h.bound j hj b hb
  · exact h.bound j hj b hb

/-- Making a scope. -/
lemma enclose (h : m.Holds R P) (s : Scope) : (m.enclose s).2.Holds R P := by
  refine ⟨fun j hj b hb => h.bound j hj b (frame_enclose m s j ▸ hb), fun j hj => h.later j ?_⟩
  have hsize : (m.enclose s).2.frames.size = m.frames.size + 1 := by simp [Machine.enclose]
  omega

/-- Entering a function on a set that has the frames of the function. -/
lemma enter (h : m.Holds R P) {f : Function} {args : List Value}
    (hf : ∀ i ∈ f.scope.chain, R i) (hargs : ∀ v ∈ args, P v) :
    (∀ i ∈ (f.enter args m).1.chain, R i) ∧ (f.enter args m).2.Holds R P := by
  constructor
  · intro i hi
    rcases List.mem_cons.1 hi with rfl | hi
    · -- the frame of the call is a new one
      exact h.later _ (Nat.le_refl _)
    · exact hf i hi
  · refine List.foldlRecOn (motive := Machine.Holds R P) (f.params.zip args) _
      (h.enclose f.scope) ?_
    intro m' hm' b hb
    exact hm'.put _ _ (hargs b.2 (List.of_mem_zip hb).2)

end Machine.Holds

end Lugha
