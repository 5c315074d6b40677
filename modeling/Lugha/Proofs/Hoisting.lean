import Lugha.Harness
import Lugha.Proofs.Frames
import Lugha.Proofs.Simulation

/-!
# Functions that are bound early

Before a program is tested, the functions that it declares are bound.  A program that runs without
an error does not notice: until it declares such a function itself it can neither use nor assign
the name, since that would be an error, and afterwards the name is bound to a function that was
made at the same place in both runs.  Names of builtins are an exception, for they mean something
before they are declared.

The two runs are compared by a simulation.  The frame of the top level may bind more names in the
second run, all other frames bind the same names, and functions have numbers that are greater by
the number of early functions.  Every scope of the runs ends with the frame of the top level, so
that its further names come last when a name is looked up.  The first run may break off with any
error, after which nothing is said of the second.
-/

namespace Lugha

/-! ### Values with other numbers of functions -/

namespace Value

/-- A value in which functions have numbers that are greater by `k`. -/
def renumbered (k : Nat) : Value → Value
  | function f => function { f with number := f.number + k }
  | returned v => returned (v.renumbered k)
  | v => v

variable (k : Nat)

/-- The type of a value does not depend on the numbers of functions. -/
lemma typeName_renumbered (v : Value) : (v.renumbered k).typeName = v.typeName := by
  cases v <;> rfl

/-- A printed value does not show the numbers of functions. -/
lemma shown_renumbered (v : Value) : (v.renumbered k).shown = v.shown := by
  induction v with
  | returned v ih => exact ih
  | _ => rfl

/-- Functions that get other numbers stay the same or different. -/
lemma same_renumbered (v w : Value) : (v.renumbered k).same (w.renumbered k) = v.same w := by
  induction v generalizing w with
  | function f =>
    cases w with
    | function g => simp [renumbered, same]
    | _ => rfl
  | returned v ih =>
    cases w with
    | returned w => exact ih w
    | _ => rfl
  | _ => cases w <;> rfl

/-- Functions look the same whatever their numbers. -/
lemma alike_renumbered (v : Value) : v.Alike (v.renumbered k) := by
  induction v with
  | function f => exact .function rfl rfl
  | returned v ih => exact .returned ih
  | _ => exact .refl _

end Value

/-! ### Scopes within a top level -/

/-- A scope that ends with a given frame, which was made before the other frames of the scope. -/
def Scope.Rooted (g : Nat) (s : Scope) : Prop :=
  ∃ inner, s.chain = inner ++ [g] ∧ ∀ i ∈ inner, g < i

/-- A value whose functions were made in scopes that end with a given frame. -/
def Value.Rooted (g : Nat) : Value → Prop
  | function f => f.scope.Rooted g
  | returned v => v.Rooted g
  | _ => True

/-- The frames of a scope were not made before the one with which it ends. -/
lemma Scope.Rooted.le {g : Nat} {s : Scope} (h : s.Rooted g) : ∀ i ∈ s.chain, g ≤ i := by
  obtain ⟨inner, hchain, hinner⟩ := h
  intro i hi
  rw [hchain, List.mem_append, List.mem_singleton] at hi
  rcases hi with hi | rfl
  · exact Nat.le_of_lt (hinner i hi)
  · exact Nat.le_refl _

/-- A scope with a new frame. -/
lemma Scope.Rooted.cons {g : Nat} {s : Scope} (h : s.Rooted g) {i : Nat} (hi : g < i) :
    Scope.Rooted g ⟨i, s.chain⟩ := by
  obtain ⟨inner, hchain, hinner⟩ := h
  refine ⟨i :: inner, congrArg (i :: ·) hchain, ?_⟩
  intro j hj
  rcases List.mem_cons.1 hj with rfl | hj
  · exact hi
  · exact hinner j hj

/-! ### Machines with further names at the top level -/

/-- Two machines that bind the same but for the numbers of functions, which are greater by `k` on the
second one, and for further names in the frame `g` of the top level, none of which is that of a
builtin. -/
structure Machine.Hoisted (g k : Nat) (m m' : Machine) : Prop where
  size : m'.frames.size = m.frames.size
  top : g < m.frames.size
  holds : m.Holds (g ≤ ·) (Value.Rooted g)
  inner : ∀ i, g < i → ∀ name,
    (m'.frame i).get? name = ((m.frame i).get? name).map (Value.renumbered k)
  bound : ∀ {name v}, (m.frame g).get? name = some v →
    (m'.frame g).get? name = some (v.renumbered k)
  further : ∀ {name}, (m.frame g).get? name = none → (m'.frame g).binds name →
    Builtin.ofName? name = none
  output : m'.output = m.output
  logs : m'.logs = m.logs
  reporter : m'.reporter = m.reporter
  functions : m'.functions = m.functions + k
  depth : m'.depth = m.depth

namespace Machine.Hoisted

variable {g k : Nat} {m m' : Machine}

/-- Within the top level a name is bound by both machines or by none. -/
lemma binds_inner (h : m.Hoisted g k m') {i : Nat} (hi : g < i) (name : String) :
    (m'.frame i).binds name = (m.frame i).binds name := by
  unfold Bindings.binds
  rw [h.inner i hi, Option.isSome_map]

/-- At the top level a name that is bound by the first machine is bound by the second. -/
lemma binds_top (h : m.Hoisted g k m') {name : String} (hname : (m.frame g).binds name) :
    (m'.frame g).binds name := by
  obtain ⟨v, hv⟩ := Option.isSome_iff_exists.1 hname
  exact Option.isSome_iff_exists.2 ⟨_, h.bound hv⟩

/-- A name that means something on the first machine means the same on the second. -/
lemma find?_of_some (h : m.Hoisted g k m') {name : String} {v : Value} {inner : List Nat}
    (hinner : ∀ i ∈ inner, g < i) (hv : m.find? name (inner ++ [g]) = some v) :
    m'.find? name (inner ++ [g]) = some (v.renumbered k) := by
  induction inner with
  | nil =>
    simp only [List.nil_append, Machine.find?] at hv ⊢
    split at hv
    · next hget =>
      cases hv
      rw [h.bound hget]
    · cases hv
  | cons i inner ih =>
    simp only [List.cons_append, Machine.find?, h.inner i (hinner i (.head _))] at hv ⊢
    split at hv
    · next hget =>
      cases hv
      rw [hget]
      rfl
    · next hget =>
      rw [hget]
      exact ih (fun j hj => hinner j (.tail _ hj)) hv

/-- A name that means something on the second machine only is not that of a builtin. -/
lemma builtin_of_find? (h : m.Hoisted g k m') {name : String} {inner : List Nat}
    (hinner : ∀ i ∈ inner, g < i) (hnone : m.find? name (inner ++ [g]) = none)
    {v : Value} (hv : m'.find? name (inner ++ [g]) = some v) : Builtin.ofName? name = none := by
  induction inner with
  | nil =>
    simp only [List.nil_append, Machine.find?] at hnone hv
    split at hnone
    · cases hnone
    · next hget =>
      refine h.further hget ?_
      unfold Bindings.binds
      cases hget' : (m'.frame g).get? name with
      | some _ => rfl
      | none => simp [hget'] at hv
  | cons i inner ih =>
    simp only [List.cons_append, Machine.find?, h.inner i (hinner i (.head _))] at hnone hv
    split at hnone
    · cases hnone
    · next hget =>
      rw [hget] at hv
      exact ih (fun j hj => hinner j (.tail _ hj)) hnone hv

/-- A name that is bound on the first machine is bound in the same frame on the second. -/
lemma owner?_of_some (h : m.Hoisted g k m') {name : String} {owner : Nat} {inner : List Nat}
    (hinner : ∀ i ∈ inner, g < i) (howner : m.owner? name (inner ++ [g]) = some owner) :
    m'.owner? name (inner ++ [g]) = some owner := by
  induction inner with
  | nil =>
    simp only [List.nil_append, Machine.owner?] at howner ⊢
    split at howner
    · next hbinds =>
      cases howner
      rw [if_pos (h.binds_top hbinds)]
    · cases howner
  | cons i inner ih =>
    have hi : g < i := hinner i (.head _)
    simp only [List.cons_append, Machine.owner?, h.binds_inner hi] at howner ⊢
    split at howner
    · next hbinds =>
      cases howner
      rw [if_pos hbinds]
    · next hbinds =>
      rw [if_neg hbinds]
      exact ih (fun j hj => hinner j (.tail _ hj)) howner

/-- Binding a name on both machines. -/
lemma put (h : m.Hoisted g k m') {i : Nat} (name : String) {v : Value} (hv : v.Rooted g) :
    (m.put i name v).Hoisted g k (m'.put i name (v.renumbered k)) where
  size := by simpa [Machine.put] using h.size
  top := by simpa [Machine.put] using h.top
  holds := h.holds.put i name hv
  inner j hj other := by
    rw [frame_put, frame_put, h.size]
    split
    · rw [Bindings.get?_insert, Bindings.get?_insert, h.inner j hj]
      split <;> rfl
    · exact h.inner j hj other
  bound := by
    intro other w hw
    rw [frame_put] at hw ⊢
    rw [h.size]
    split at hw
    · next hhere =>
      rw [if_pos hhere, Bindings.get?_insert]
      rw [Bindings.get?_insert] at hw
      split at hw
      · next hother =>
        cases hw
        rw [if_pos hother]
      · next hother =>
        rw [if_neg hother]
        exact h.bound hw
    · next hhere =>
      rw [if_neg hhere]
      exact h.bound hw
  further := by
    intro other hnone hbinds
    rw [frame_put] at hnone hbinds
    rw [h.size] at hbinds
    split at hnone
    · next hhere =>
      rw [if_pos hhere] at hbinds
      unfold Bindings.binds at hbinds
      rw [Bindings.get?_insert] at hnone hbinds
      split at hnone
      · cases hnone
      · next hother =>
        rw [if_neg hother] at hbinds
        exact h.further hnone hbinds
    · next hhere =>
      rw [if_neg hhere] at hbinds
      exact h.further hnone hbinds
  output := h.output
  logs := h.logs
  reporter := h.reporter
  functions := h.functions
  depth := h.depth

/-- Making a scope on both machines. -/
lemma enclose (h : m.Hoisted g k m') {s : Scope} (hs : s.Rooted g) :
    (m'.enclose s).1 = (m.enclose s).1 ∧ (m.enclose s).1.Rooted g ∧
      (m.enclose s).2.Hoisted g k (m'.enclose s).2 := by
  refine ⟨?_, hs.cons h.top, ?_⟩
  · simp [Machine.enclose, h.size]
  · exact {
      size := by simpa [Machine.enclose] using h.size
      top := by
        have hsize : (m.enclose s).2.frames.size = m.frames.size + 1 := by simp [Machine.enclose]
        rw [hsize]
        exact Nat.lt_succ_of_lt h.top
      holds := h.holds.enclose s
      inner := fun i hi name => by
        rw [frame_enclose, frame_enclose]
        exact h.inner i hi name
      bound := by
        intro name v hv
        rw [frame_enclose] at hv ⊢
        exact h.bound hv
      further := by
        intro name hnone hbinds
        rw [frame_enclose] at hnone hbinds
        exact h.further hnone hbinds
      output := h.output
      logs := h.logs
      reporter := h.reporter
      functions := h.functions
      depth := h.depth }

/-- Changing what is counted, printed and recorded. -/
lemma congr (h : m.Hoisted g k m') {n n' : Machine} (hframes : n.frames = m.frames)
    (hframes' : n'.frames = m'.frames) (houtput : n'.output = n.output) (hlogs : n'.logs = n.logs)
    (hreporter : n'.reporter = n.reporter) (hfunctions : n'.functions = n.functions + k)
    (hdepth : n'.depth = n.depth) : n.Hoisted g k n' := by
  have hframe (i : Nat) : n.frame i = m.frame i := by simp [Machine.frame, hframes]
  have hframe' (i : Nat) : n'.frame i = m'.frame i := by simp [Machine.frame, hframes']
  exact {
    size := by rw [hframes, hframes', h.size]
    top := hframes ▸ h.top
    holds := h.holds.congr hframes
    inner := fun i hi name => by rw [hframe, hframe', h.inner i hi]
    bound := by
      intro name v hv
      rw [hframe] at hv
      rw [hframe', h.bound hv]
    further := by
      intro name hnone hbinds
      rw [hframe] at hnone
      rw [hframe'] at hbinds
      exact h.further hnone hbinds
    output := houtput
    logs := hlogs
    reporter := hreporter
    functions := hfunctions
    depth := hdepth }

/-- Entering a function on both machines. -/
lemma enter (h : m.Hoisted g k m') {f : Function} (hf : f.scope.Rooted g) {args : List Value}
    (hargs : ∀ v ∈ args, v.Rooted g) :
    let f' : Function := { f with number := f.number + k }
    let args' := args.map (Value.renumbered k)
    (f'.enter args' m').1 = (f.enter args m).1 ∧ (f.enter args m).1.Rooted g ∧
      (f.enter args m).2.Hoisted g k (f'.enter args' m').2 := by
  intro f' args'
  obtain ⟨hs, hrooted, henclose⟩ := h.enclose hf
  refine ⟨hs, hrooted, ?_⟩
  unfold Function.enter
  dsimp only [f', args']
  rw [hs, List.zip_map_right, List.foldl_map]
  refine List.foldl_rel henclose ?_
  intro b hb n n' hn
  exact hn.put _ (hargs b.2 (List.of_mem_zip hb).2)

end Machine.Hoisted

/-! ### Runs in step -/

/-- The simulation of runs of which the second one has bound `k` functions early. -/
def Simulation.hoisted (g k : Nat) : Simulation where
  value v v' := v' = v.renumbered k ∧ v.Rooted g
  result v v' := v' = v.renumbered k ∧ v.Rooted g
  scope s s' := s' = s ∧ s.Rooted g
  body := Eq
  machine := Machine.Hoisted g k
  cut _ _ _ := True

namespace Simulation.hoisted

variable {g k : Nat}

/-- The values of arguments have other numbers of functions. -/
lemma operands {args args' : List Value} (h : List.Forall₂ (hoisted g k).operand args args') :
    args' = args.map (Value.renumbered k) ∧ ∀ v ∈ args, v.Rooted g := by
  induction h with
  | nil => exact ⟨rfl, List.forall_mem_nil _⟩
  | cons hv _ ih =>
    obtain ⟨hargs, hrooted⟩ := ih
    constructor
    · rw [hv.1.1, hargs, List.map_cons]
    · intro v hmem
      rcases List.mem_cons.1 hmem with rfl | hmem
      · exact hv.1.2
      · exact hrooted v hmem

/-- The message of an assertion does not show the numbers of functions. -/
lemma assertionMessage_eq (args : List Value) :
    assertionMessage (args.map (Value.renumbered k)) = assertionMessage args := by
  cases args with
  | nil => rfl
  | cons condition rest =>
    cases rest with
    | nil => rfl
    | cons message rest => cases message <;> rfl

/-- A literal has no functions. -/
lemma literal {v : Value} (h : v.isLiteral) : v = v.renumbered k ∧ v.Rooted g := by
  cases v with
  | number | text | boolean | null => exact ⟨rfl, trivial⟩
  | _ => cases h

/-- A function that stands for another one has a greater number. -/
lemma function_eq {f f' : Function}
    (h : Value.function f' = (Value.function f).renumbered k) :
    f' = { f with number := f.number + k } :=
  Value.function.inj h

/-- Assertions match. -/
lemma assert_matches (args : List Value) :
    (hoisted g k).Matches (hoisted g k).result (Builtin.assert args)
      (Builtin.assert (args.map (Value.renumbered k))) := by
  intro m m' hm
  have hmessage := assertionMessage_eq (k := k) args
  cases args with
  | nil => exact .error hm
  | cons condition args =>
    rw [List.map_cons] at hmessage ⊢
    simp only [Builtin.assert, hmessage, (condition.alike_renumbered k).truthy_eq, hm.reporter]
    split
    · refine .ok (literal rfl) (hm.congr rfl rfl hm.output ?_ hm.reporter hm.functions hm.depth)
      simp only [Machine.record, hm.logs]
    · split
      · exact .ok (literal rfl) hm
      · exact .error hm

/-- Builtins match. -/
lemma builtin_matches (b : Builtin) (args : List Value) :
    (hoisted g k).Matches (hoisted g k).result (b.apply args)
      (b.apply (args.map (Value.renumbered k))) := by
  cases b with
  | hakiki => exact assert_matches args
  | andika =>
    intro m m' hm
    refine .ok (literal rfl) (hm.congr rfl rfl ?_ hm.logs hm.reporter hm.functions hm.depth)
    have hshown : (args.map (Value.renumbered k)).map Value.shown = args.map Value.shown := by
      rw [List.map_map]
      exact List.map_congr_left fun v _ => v.shown_renumbered k
    simp only [Machine.print, hshown, hm.output]
  | aina =>
    intro m m' hm
    cases args with
    | nil => exact .error hm
    | cons v rest =>
      cases rest with
      | nil =>
        simp only [Builtin.apply, List.map_cons, List.map_nil, v.typeName_renumbered k]
        exact .ok (literal rfl) hm
      | cons =>
        simp only [Builtin.apply, List.map_cons, List.length_cons, List.length_map]
        exact .error hm

/-- Looking a name up. A name that means something in the second run only is an error of the
first. -/
lemma resolve_matches {s : Scope} (hs : s.Rooted g) (name : String) :
    (hoisted g k).Matches (hoisted g k).value (s.resolve name) (s.resolve name) := by
  intro m m' hm
  have hrooted {v : Value} (hv : m.find? name s.chain = some v) : v.Rooted g :=
    hm.holds.find? hs.le hv
  obtain ⟨inner, hchain, hinner⟩ := hs
  unfold Scope.resolve Machine.get?
  cases hv : m.find? name s.chain with
  | some v =>
    have hv' : m'.find? name s.chain = some (v.renumbered k) := by
      rw [hchain] at hv ⊢
      exact hm.find?_of_some hinner hv
    rw [hv']
    exact .ok ⟨rfl, hrooted hv⟩ hm
  | none =>
    dsimp only
    cases hb : Builtin.ofName? name with
    | none => exact .cut trivial
    | some b =>
      have hnone' : m'.find? name s.chain = none := by
        rw [hchain] at hv ⊢
        by_contra hsome
        obtain ⟨w, hw⟩ := Option.ne_none_iff_exists'.1 hsome
        rw [hm.builtin_of_find? hinner hv hw] at hb
        cases hb
      rw [hnone']
      exact .ok ⟨rfl, trivial⟩ hm

/-- Assigning a name. A name that is bound in the second run only is an error of the first. -/
lemma assign_matches {s : Scope} (hs : s.Rooted g) (name : String) {v : Value} (hv : v.Rooted g) :
    (hoisted g k).Matches (hoisted g k).value (s.assign name v)
      (s.assign name (v.renumbered k)) := by
  intro m m' hm
  obtain ⟨inner, hchain, hinner⟩ := hs
  unfold Scope.assign Machine.assign
  cases howner : m.owner? name s.chain with
  | none => exact .cut trivial
  | some i =>
    have howner' : m'.owner? name s.chain = some i := by
      rw [hchain] at howner ⊢
      exact hm.owner?_of_some hinner howner
    rw [howner']
    exact .ok (literal rfl) (hm.put name hv)

/-- Runs with functions that are bound early follow the laws of simulations. -/
lemma lawful (g k : Nat) : (hoisted g k).Lawful where
  literal := literal
  jump := fun _ => ⟨rfl, trivial⟩
  returned := fun hv => ⟨congrArg Value.returned hv.1.1, hv.1.2⟩
  settled := fun hv => ⟨Value.returned.inj hv.1, hv.2⟩
  yielded := fun hv => hv.1
  result := id
  alike := fun {v _} hv => hv.1 ▸ v.alike_renumbered k
  same := fun hv hw => by rw [hv.1.1, hw.1.1, Value.same_renumbered]
  resolve := by
    intro s s' name hs
    obtain ⟨rfl, hrooted⟩ := hs
    exact resolve_matches hrooted name
  makeFunction := by
    intro s s' name name' params params' b b' hs hname hparams _ hbody m m' hm
    obtain ⟨rfl, hrooted⟩ := hs
    cases hbody
    unfold Scope.makeFunction
    rw [hname, hparams, hm.functions]
    refine .ok ⟨rfl, hrooted⟩ (hm.congr rfl rfl hm.output hm.logs hm.reporter ?_ hm.depth)
    exact Nat.add_right_comm m.functions k 1
  set := by
    intro s s' v v' m m' name hs hv hm
    obtain ⟨rfl, -⟩ := hs
    rw [hv.1.1]
    exact hm.put name hv.1.2
  assign := by
    intro s s' v v' name hs hv
    obtain ⟨rfl, hrooted⟩ := hs
    rw [hv.1.1]
    exact assign_matches hrooted name hv.1.2
  builtin := by
    intro args args' b hargs
    rw [(operands hargs).1]
    exact builtin_matches b args
  body_like := by
    intro f f' hf
    rw [function_eq hf.1]
    exact Block.like_refl (fun _ => rfl) f.body
  enter := by
    intro f f' args args' m m' hf hargs _ hm
    obtain ⟨hargs, hrooted⟩ := operands hargs
    have hcounted : Machine.Hoisted g k { m with depth := m.depth + 1 }
        { m' with depth := m'.depth + 1 } :=
      hm.congr rfl rfl hm.output hm.logs hm.reporter hm.functions (congrArg (· + 1) hm.depth)
    obtain ⟨hs, hscope, henter⟩ := hcounted.enter hf.2 hrooted
    rw [function_eq hf.1, hargs]
    exact ⟨⟨hs, hscope⟩, henter⟩
  leave := fun hm =>
    hm.congr rfl rfl hm.output hm.logs hm.reporter hm.functions (congrArg (· - 1) hm.depth)
  cut_leave := fun _ => trivial
  cut_grows := fun _ _ => trivial

end Simulation.hoisted

/-- Where the first run has not failed, it agrees with the second one. -/
lemma Simulation.Agree.finish_of_not_error {S : Simulation} {V : Value → Value → Prop}
    {r r' : Run Value} {m m' : Machine} (h : S.Agree V (r m) (r' m'))
    (hok : (r.finish m).1.isError = false) :
    V (r.finish m).1 (r'.finish m').1 ∧ S.machine (r.finish m).2 (r'.finish m').2 := by
  unfold Run.finish at hok ⊢
  generalize r m = x at h hok
  generalize r' m' = x' at h
  cases h with
  | ok hv hm => exact ⟨hv, hm⟩
  | error => cases hok
  | cut => cases hok

/-! ### Binding functions early -/

/-- A declaration makes a function and binds its name. -/
lemma Stmt.run_of_declared (l : Limits) (s : Scope) {stmt : Stmt} {name : Ident}
    (h : stmt.declared? = some name) (m : Machine) :
    ∃ v, (stmt.run l s m).2 = { m with functions := m.functions + 1 }.put s.frame name.name v := by
  cases stmt with
  | expr value =>
    obtain ⟨span, params, body, rfl⟩ := Stmt.eq_function_of_declared h
    refine ⟨.function ⟨m.functions, some name.name, params.map (·.name), body, s⟩, ?_⟩
    unfold Stmt.run
    rw [Stmt.eval]
    rfl
  | _ => cases h

/-- A new top level and the frames after it bind nothing. -/
lemma Machine.frame_newTop {m : Machine} {i : Nat} (hi : m.frames.size ≤ i) :
    m.newTop.2.frame i = [] := by
  rw [← frame_of_size_le hi]
  exact m.frame_enclose ⟨0, []⟩ i

namespace Machine.Hoisted

variable {g k : Nat} {m m' : Machine}

/-- A new top level, on which nothing was done yet. -/
lemma newTop (m : Machine) : m.newTop.2.Hoisted m.frames.size 0 m.newTop.2 where
  size := rfl
  top := by simp [Machine.newTop]
  holds := .newTop _ m
  inner i hi name := by
    rw [frame_newTop (Nat.le_of_lt hi)]
    rfl
  bound := by
    intro name v hv
    rw [frame_newTop (Nat.le_refl _)] at hv
    cases hv
  further := by
    intro name _ hbinds
    rw [frame_newTop (Nat.le_refl _)] at hbinds
    cases hbinds
  output := rfl
  logs := rfl
  reporter := rfl
  functions := rfl
  depth := rfl

/-- Binding one more function early. On the first machine nothing was done yet. -/
lemma declare (h : m.Hoisted g k m') (hempty : ∀ i, g ≤ i → m.frame i = []) {name : String}
    (hname : Builtin.ofName? name = none) (v : Value) :
    m.Hoisted g (k + 1) ({ m' with functions := m'.functions + 1 }.put g name v) where
  size := by simpa [Machine.put] using h.size
  top := h.top
  holds := h.holds
  inner i hi other := by
    have hkept := h.inner i hi other
    rw [hempty i (Nat.le_of_lt hi)] at hkept ⊢
    rw [frame_put, if_neg (fun hg => Nat.ne_of_lt hi hg.1)]
    exact hkept
  bound := by
    intro other w hw
    rw [hempty g (Nat.le_refl _)] at hw
    cases hw
  further := by
    intro other hnone hbinds
    rw [frame_put] at hbinds
    split at hbinds
    · unfold Bindings.binds at hbinds
      rw [Bindings.get?_insert] at hbinds
      split at hbinds
      · next hother => exact hother ▸ hname
      · exact h.further hnone hbinds
    · exact h.further hnone hbinds
  output := h.output
  logs := h.logs
  reporter := h.reporter
  functions := congrArg (· + 1) h.functions
  depth := h.depth

end Machine.Hoisted

/-- A name that no builtin has. -/
lemma Builtin.ofName?_eq_none {name : String} (h : ∀ b ∈ all, name ≠ b.name) :
    ofName? name = none := by
  unfold ofName?
  rw [List.find?_eq_none]
  intro b hmem hb
  exact h b hmem (eq_of_beq hb).symm

namespace Program

/-- How many functions a program declares at the top level. -/
def declarations (p : Program) : Nat := p.stmts.countP fun stmt => stmt.declared?.isSome

/-- Whether no function that a program declares at the top level has the name of a builtin. -/
def SparesBuiltins (p : Program) : Prop :=
  ∀ stmt ∈ p.stmts, ∀ name ∈ stmt.declared?, ∀ b ∈ Builtin.all, name.name ≠ b.name

instance (p : Program) : Decidable p.SparesBuiltins :=
  inferInstanceAs (Decidable (∀ _ ∈ _, ∀ _ ∈ _, _))

/-- Binding the functions that statements declare, after `k` others. -/
lemma hoisted_foldl (l : Limits) (m : Machine) {stmts : List Stmt}
    (hnames : ∀ stmt ∈ stmts, ∀ name ∈ stmt.declared?, ∀ b ∈ Builtin.all, name.name ≠ b.name)
    {k : Nat} {m' : Machine}
    (h : m.newTop.2.Hoisted m.frames.size k m') :
    m.newTop.2.Hoisted m.frames.size (k + stmts.countP fun stmt => stmt.declared?.isSome)
      (stmts.foldl (fun m' stmt =>
        if stmt.declared?.isSome then (stmt.run l m.newTop.1 m').2 else m') m') := by
  induction stmts generalizing k m' with
  | nil => exact h
  | cons stmt stmts ih =>
    have hrest := fun stmt' hstmt' => hnames stmt' (.tail _ hstmt')
    cases hd : stmt.declared? with
    | none =>
      have hskip := ih hrest h
      simpa [List.countP_cons, hd] using hskip
    | some name =>
      obtain ⟨v, hv⟩ : ∃ v, (stmt.run l m.newTop.1 m').2 =
          { m' with functions := m'.functions + 1 }.put m.frames.size name.name v :=
        Stmt.run_of_declared l m.newTop.1 hd m'
      have hname := Builtin.ofName?_eq_none (hnames stmt (.head _) name hd)
      have hdeclare := h.declare (fun _ => Machine.frame_newTop) hname v
      have hnext := ih hrest hdeclare
      rw [Nat.add_assoc, Nat.add_comm 1] at hnext
      simpa [List.countP_cons, hd, hv] using hnext

/-- After the functions of a program were bound, the machine differs from a new one by them. -/
lemma hoisted_hoist (l : Limits) {p : Program} (hnames : p.SparesBuiltins) (m : Machine) :
    m.newTop.2.Hoisted m.frames.size p.declarations (p.hoist l m.newTop.1 m.newTop.2) := by
  have hall := hoisted_foldl l m hnames (Machine.Hoisted.newTop m)
  rwa [Nat.zero_add] at hall

/-- Hoisting is conservative. If no declared function has the name of a builtin and a program runs
without an error on a new top level, then it prints and asserts the same when its functions were
bound before, ends with the same value, and binds every name to the same value, where functions
have numbers that are greater by the number of declarations. -/
theorem run_hoisted (l : Limits) {p : Program} (hnames : p.SparesBuiltins) (m : Machine)
    (hplain : (p.run l m.newTop.1 m.newTop.2).1.isError = false) :
    let top := m.newTop.1
    let plain := p.run l top m.newTop.2
    let hoisted := p.run l top (p.hoist l top m.newTop.2)
    hoisted.1 = plain.1.renumbered p.declarations ∧
    hoisted.1.typeName = plain.1.typeName ∧ hoisted.1.shown = plain.1.shown ∧
    hoisted.2.output = plain.2.output ∧ hoisted.2.logs = plain.2.logs ∧
    ∀ name v, plain.2.get? top name = some v →
      hoisted.2.get? top name = some (v.renumbered p.declarations) := by
  intro top plain hoisted
  have hS := Simulation.hoisted.lawful m.frames.size p.declarations
  have hstart := p.hoisted_hoist l hnames m
  have htop : top.Rooted m.frames.size := ⟨[], rfl, List.forall_mem_nil _⟩
  have hagree := p.eval_matches hS (l.contexts_self hS m.depth) ⟨rfl, htop⟩
    (Stmt.likeList_refl (fun _ => rfl) p.stmts) hstart
  have hend : (Simulation.hoisted m.frames.size p.declarations).result plain.1 hoisted.1 ∧
      plain.2.Hoisted m.frames.size p.declarations hoisted.2 := by
    have hdepth : (p.hoist l top m.newTop.2).depth = m.depth := hstart.depth
    unfold hoisted run
    rw [hdepth]
    exact hagree.finish_of_not_error hplain
  obtain ⟨⟨hvalue, -⟩, hmachine⟩ := hend
  refine ⟨hvalue, ?_, ?_, hmachine.output, hmachine.logs, ?_⟩
  · rw [hvalue, Value.typeName_renumbered]
  · rw [hvalue, Value.shown_renumbered]
  · intro name v hv
    have hinner : ∀ i ∈ ([] : List Nat), m.frames.size < i := List.forall_mem_nil _
    exact hmachine.find?_of_some hinner hv

/-- A function is bound to a further name and declared anew. Both functions are bound before in the
hoisted run, and the names mean the right ones again when they are used. -/
theorem run_hoisted_redeclared :
    let name (n : String) : Expr := .name .synthetic n
    let declare (params : List Ident) (result : String) : Stmt :=
      .expr (.function .synthetic (some ⟨"f", .synthetic⟩) params
        (.mk .synthetic [.returnValue .synthetic (.text .synthetic result)]))
    let keep : Stmt := .bind .synthetic ⟨"g", .synthetic⟩ (name "f")
    let print : Stmt := .expr (.call .synthetic (name "andika")
      [.call .synthetic (name "g") [], .binary .synthetic .equal (name "g") (name "f")])
    let p : Program := ⟨[declare [] "a", keep, declare [⟨"x", .synthetic⟩] "b", print,
      .expr (name "f")], .synthetic⟩
    let m : Machine := {}
    p.SparesBuiltins ∧ (p.run {} m.newTop.1 m.newTop.2).1.isError = false ∧
    (p.run {} m.newTop.1 m.newTop.2).2.output = #["a sikweli"] ∧
    (p.run {} m.newTop.1 (p.hoist {} m.newTop.1 m.newTop.2)).2.output =
      (p.run {} m.newTop.1 m.newTop.2).2.output ∧
    (p.run {} m.newTop.1 (p.hoist {} m.newTop.1 m.newTop.2)).1.shown = "unda(x)" := by
  intro name declare keep print p m
  have hnames : p.SparesBuiltins := by decide
  have hplain : (p.run {} m.newTop.1 m.newTop.2).1.isError = false := by decide +kernel
  obtain ⟨-, -, hshown, houtput, -⟩ := run_hoisted {} hnames m hplain
  refine ⟨hnames, hplain, ?_, houtput, hshown.trans ?_⟩
  · decide +kernel
  · decide +kernel

end Program

end Lugha
