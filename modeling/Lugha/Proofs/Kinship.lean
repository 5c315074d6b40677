import Lugha.Proofs.Frames
import Lugha.Proofs.Simulation

/-!
# Machines that differ in the bodies of functions

A function carries the tree of its body, so programs with different trees bind different functions
even if these do the same.  Values are kin if they are equal but for the bodies of functions, and
the bodies are in a given relation; machines are kin if they bind kin to the same names, and agree
in all else.  The second machine may have printed other lines before.

A program can look at a function in few ways: it can show its parameters, compare it by its number
and call it.  So if bodies in the relation are alike, then like programs run in step on machines
that are kin (`Simulation.kin`).
-/

namespace Lugha

/-! ### Values -/

namespace Value.Alike

variable {v w : Value}

/-- Values that look the same have the same type. -/
lemma typeName_eq (h : v.Alike w) : w.typeName = v.typeName := by
  cases h <;> rfl

/-- Values that look the same are printed the same. -/
lemma shown_eq (h : v.Alike w) : w.shown = v.shown := by
  induction h with
  | refl => rfl
  | function _ hparams => rw [shown, shown, hparams]
  | returned _ ih => exact ih

/-- Values that look the same are the same error. -/
lemma eq_error_iff (h : v.Alike w) {e : EvalError} : w = .error e ↔ v = .error e := by
  cases h with
  | refl => rfl
  | function | returned => simp

/-- Arguments that look the same are printed the same. -/
lemma map_shown {args args' : List Value} (h : List.Forall₂ Value.Alike args args') :
    args'.map shown = args.map shown := by
  induction h with
  | nil => rfl
  | cons hv _ ih => rw [List.map_cons, List.map_cons, hv.shown_eq, ih]

/-- Arguments that look the same give an assertion the same message. -/
lemma assertionMessage_eq {args args' : List Value} (h : List.Forall₂ Value.Alike args args') :
    assertionMessage args' = assertionMessage args := by
  cases h with
  | nil => rfl
  | cons _ hrest =>
    cases hrest with
    | nil => rfl
    | @cons v _ _ _ hv _ =>
      cases hv with
      | refl => cases v <;> rfl
      | function | returned => rfl

end Value.Alike

/-- Values that are equal but for the bodies of functions, which are related. -/
def Value.Kin (B : Block → Block → Prop) : Value → Value → Prop
  | .function f, v' => ∃ body, B f.body body ∧ v' = .function { f with body := body }
  | .returned v, v' => ∃ w, v.Kin B w ∧ v' = .returned w
  | v, v' => v' = v

variable {B : Block → Block → Prop}

namespace Value.Kin

variable {v v' w w' : Value}

/-- A literal is its own kin. -/
lemma of_isLiteral (h : v.isLiteral) : v.Kin B v := by
  cases v with
  | function | returned => cases h
  | _ => rfl

/-- Every value is its own kin, if every body is related to itself. -/
lemma refl (hB : ∀ b, B b b) (v : Value) : v.Kin B v := by
  induction v with
  | function f => exact ⟨f.body, hB f.body, rfl⟩
  | returned v ih => exact ⟨v, ih, rfl⟩
  | _ => rfl

/-- Values that are kin look the same. -/
lemma alike (h : v.Kin B v') : v.Alike v' := by
  induction v generalizing v' with
  | function f =>
    obtain ⟨body, -, rfl⟩ := h
    exact .function rfl rfl
  | returned v ih =>
    obtain ⟨w, hw, rfl⟩ := h
    exact .returned (ih hw)
  | _ =>
    cases h
    exact .refl _

/-- Values that are kin are the same together. -/
lemma same_eq (hv : v.Kin B v') (hw : w.Kin B w') : v'.same w' = v.same w := by
  induction v generalizing v' w w' with
  | function f =>
    obtain ⟨body, -, rfl⟩ := hv
    cases w with
    | function g =>
      obtain ⟨body', -, rfl⟩ := hw
      rfl
    | returned w =>
      obtain ⟨w₁, -, rfl⟩ := hw
      rfl
    | _ =>
      cases hw
      rfl
  | returned v ih =>
    obtain ⟨v₁, hv₁, rfl⟩ := hv
    cases w with
    | function g =>
      obtain ⟨body', -, rfl⟩ := hw
      rfl
    | returned w =>
      obtain ⟨w₁, hw₁, rfl⟩ := hw
      have hinner : v₁.same w₁ = v.same w := ih hv₁ hw₁
      exact hinner
    | _ =>
      cases hw
      rfl
  | _ =>
    cases hv
    cases hw.alike <;> rfl

end Value.Kin

/-! ### Machines -/

/-- Bindings of the same names to values that are kin. -/
def Bindings.Kin (B : Block → Block → Prop) (bs bs' : Bindings Value) : Prop :=
  List.Forall₂ (fun b b' => b'.1 = b.1 ∧ b.2.Kin B b'.2) bs bs'

namespace Bindings.Kin

variable {bs bs' : Bindings Value}

/-- A name is bound to kin. -/
lemma get? (h : bs.Kin B bs') (name : String) :
    Option.Rel (Value.Kin B) (bs.get? name) (bs'.get? name) := by
  induction h with
  | nil => exact .none
  | @cons b b' _ _ hb _ ih =>
    rw [Bindings.get?, Bindings.get?, hb.1]
    split
    · exact .some hb.2
    · exact ih

/-- Binding a name to kin. -/
lemma insert (h : bs.Kin B bs') (name : String) {v v' : Value} (hv : v.Kin B v') :
    (bs.insert name v).Kin B (bs'.insert name v') := by
  induction h with
  | nil => exact .cons ⟨rfl, hv⟩ .nil
  | @cons b b' _ _ hb hrest ih =>
    rw [Bindings.insert, Bindings.insert, hb.1]
    split
    · exact .cons ⟨rfl, hv⟩ hrest
    · split
      · exact .cons ⟨rfl, hv⟩ (.cons ⟨rfl, hb.2⟩ hrest)
      · exact .cons ⟨rfl, hb.2⟩ ih

end Bindings.Kin

/-- Two machines that bind kin and agree in all else, when the second one has printed some lines
before. -/
structure Machine.Kin (B : Block → Block → Prop) (printed : Array String) (m m' : Machine) :
    Prop where
  size : m'.frames.size = m.frames.size
  frame : ∀ i, (m.frame i).Kin B (m'.frame i)
  output : m'.output = printed ++ m.output
  logs : m'.logs = m.logs
  reporter : m'.reporter = m.reporter
  functions : m'.functions = m.functions
  depth : m'.depth = m.depth

namespace Machine.Kin

variable {printed : Array String} {m m' : Machine}

/-- Every machine is its own kin, if every body is related to itself. -/
lemma refl (hB : ∀ b, B b b) (m : Machine) : m.Kin B #[] m := by
  have hframe (i : Nat) : (m.frame i).Kin B (m.frame i) :=
    List.forall₂_same.2 fun b _ => ⟨rfl, .refl hB b.2⟩
  exact ⟨rfl, hframe, by simp, rfl, rfl, rfl, rfl⟩

/-- A name means kin in a scope. -/
lemma find? (h : m.Kin B printed m') (name : String) : ∀ chain : List Nat,
    Option.Rel (Value.Kin B) (m.find? name chain) (m'.find? name chain)
  | [] => .none
  | i :: outer => by
    have hget := (h.frame i).get? name
    unfold Machine.find?
    generalize (m.frame i).get? name = x at hget
    generalize (m'.frame i).get? name = x' at hget
    cases hget with
    | none => exact h.find? name outer
    | some hv => exact .some hv

/-- A name is bound in the same frame. -/
lemma owner? (h : m.Kin B printed m') (name : String) : ∀ chain : List Nat,
    m'.owner? name chain = m.owner? name chain
  | [] => rfl
  | i :: outer => by
    have hget := (h.frame i).get? name
    have hbinds : (m'.frame i).binds name = (m.frame i).binds name := by
      unfold Bindings.binds
      generalize (m.frame i).get? name = x at hget
      generalize (m'.frame i).get? name = x' at hget
      cases hget <;> rfl
    unfold Machine.owner?
    rw [hbinds, h.owner? name outer]

/-- Changing what is counted and printed. -/
lemma congr (h : m.Kin B printed m') {n n' : Machine} {printed' : Array String}
    (hframes : n.frames = m.frames) (hframes' : n'.frames = m'.frames)
    (houtput : n'.output = printed' ++ n.output) (hlogs : n'.logs = n.logs)
    (hreporter : n'.reporter = n.reporter) (hfunctions : n'.functions = n.functions)
    (hdepth : n'.depth = n.depth) : n.Kin B printed' n' where
  size := by rw [hframes, hframes', h.size]
  frame i := by simpa [Machine.frame, hframes, hframes'] using h.frame i
  output := houtput
  logs := hlogs
  reporter := hreporter
  functions := hfunctions
  depth := hdepth

/-- Binding a name. -/
lemma put (h : m.Kin B printed m') (i : Nat) (name : String) {v v' : Value} (hv : v.Kin B v') :
    (m.put i name v).Kin B printed (m'.put i name v') where
  size := by simpa [Machine.put] using h.size
  frame j := by
    rw [frame_put, frame_put, h.size]
    split
    · exact (h.frame j).insert name hv
    · exact h.frame j
  output := h.output
  logs := h.logs
  reporter := h.reporter
  functions := h.functions
  depth := h.depth

/-- Making a scope. -/
lemma enclose (h : m.Kin B printed m') (s : Scope) :
    (m'.enclose s).1 = (m.enclose s).1 ∧ (m.enclose s).2.Kin B printed (m'.enclose s).2 := by
  refine ⟨by simp [Machine.enclose, h.size], ?_⟩
  exact {
    size := by simpa [Machine.enclose] using h.size
    frame := fun i => by
      rw [frame_enclose, frame_enclose]
      exact h.frame i
    output := h.output
    logs := h.logs
    reporter := h.reporter
    functions := h.functions
    depth := h.depth }

/-- Entering a function. -/
lemma enter (h : m.Kin B printed m') {f f' : Function} {args args' : List Value}
    (hf : (Value.function f).Kin B (.function f')) (hargs : List.Forall₂ (Value.Kin B) args args') :
    (f'.enter args' m').1 = (f.enter args m).1 ∧
      (f.enter args m).2.Kin B printed (f'.enter args' m').2 := by
  obtain ⟨body, -, heq⟩ := hf
  cases heq
  obtain ⟨hs, henclose⟩ := h.enclose f.scope
  unfold Function.enter
  dsimp only
  rw [hs]
  refine ⟨rfl, ?_⟩
  generalize (m.enclose f.scope).2 = n at henclose
  generalize (m'.enclose f.scope).2 = n' at henclose
  generalize f.params = params
  induction hargs generalizing params n n' with
  | nil => simpa using henclose
  | cons hv _ ih =>
    cases params with
    | nil => exact henclose
    | cons param params => exact ih _ _ (henclose.put _ param hv) params

end Machine.Kin

/-! ### Runs in step -/

/-- The simulation of runs that differ in the bodies of functions, when the second one has printed
some lines before. -/
def Simulation.kin (B : Block → Block → Prop) (printed : Array String) : Simulation where
  value := Value.Kin B
  result := Value.Kin B
  scope := Eq
  body := B
  machine := Machine.Kin B printed
  cut := fun _ _ _ => False

namespace Simulation.kin

variable {printed : Array String}

/-- Assertions do not look at bodies. -/
lemma assert_matches {args args' : List Value} (h : List.Forall₂ Value.Alike args args') :
    (kin B printed).Matches (Value.Kin B) (Builtin.assert args) (Builtin.assert args') := by
  intro m m' hm
  have hmessage := Value.Alike.assertionMessage_eq h
  cases h with
  | nil => exact .error hm
  | cons hv _ =>
    simp only [Builtin.assert, hmessage, hv.truthy_eq, hm.reporter]
    split
    · refine .ok rfl (hm.congr rfl rfl hm.output ?_ hm.reporter hm.functions hm.depth)
      simp [Machine.record, hm.logs]
    · split
      · exact .ok rfl hm
      · exact .error hm

/-- Builtins do not look at bodies. -/
lemma builtin_matches (b : Builtin) {args args' : List Value}
    (h : List.Forall₂ Value.Alike args args') :
    (kin B printed).Matches (Value.Kin B) (b.apply args) (b.apply args') := by
  cases b with
  | hakiki => exact assert_matches h
  | andika =>
    intro m m' hm
    refine .ok rfl (hm.congr rfl rfl ?_ hm.logs hm.reporter hm.functions hm.depth)
    simp [Machine.print, Value.Alike.map_shown h, hm.output]
  | aina =>
    intro m m' hm
    have hlength := h.length_eq
    cases h with
    | nil => exact .error hm
    | cons hv hrest =>
      cases hrest with
      | nil =>
        simp only [Builtin.apply, hv.typeName_eq]
        exact .ok rfl hm
      | cons =>
        simp only [Builtin.apply, hlength]
        exact .error hm

/-- Runs that differ in the bodies of functions follow the laws of simulations, if these bodies are
alike. -/
lemma lawful (hB : ∀ {b b' : Block}, B b b' → b.Like B b') (printed : Array String) :
    (kin B printed).Lawful where
  literal := Value.Kin.of_isLiteral
  jump := fun _ => rfl
  returned := fun hv => ⟨_, hv.1, rfl⟩
  settled := by
    rintro v v' ⟨w, hw, heq⟩
    cases heq
    exact hw
  yielded := fun hv => hv.1
  result := id
  alike := Value.Kin.alike
  same := fun hv hw => hv.1.same_eq hw.1
  resolve := by
    intro s s' name hs m m' hm
    cases hs
    have hget := hm.find? name s.chain
    unfold Scope.resolve Machine.get?
    generalize m.find? name s.chain = x at hget
    generalize m'.find? name s.chain = x' at hget
    cases hget with
    | none =>
      dsimp only
      split
      · exact .ok rfl hm
      · exact .error hm
    | some hv => exact .ok hv hm
  makeFunction := by
    intro s s' name name' params params' b b' hs hname hparams _ hbody m m' hm
    cases hs
    refine .ok ⟨b', hbody, ?_⟩ ?_
    · rw [hm.functions, hname, hparams]
    · exact hm.congr rfl rfl hm.output hm.logs hm.reporter (congrArg (· + 1) hm.functions) hm.depth
  set := fun name hs hv hm => by
    cases hs
    exact hm.put _ name hv.1
  assign := by
    intro s s' v v' name hs hv m m' hm
    cases hs
    unfold Scope.assign Machine.assign
    rw [hm.owner? name s.chain]
    cases m.owner? name s.chain with
    | none => exact .error hm
    | some i => exact .ok rfl (hm.put i name hv.1)
  builtin := fun b hargs => builtin_matches b (hargs.imp fun _ _ hv => hv.1.alike)
  body_like := by
    rintro f f' ⟨body, hbody, heq⟩
    cases heq
    exact hB hbody
  enter := by
    intro f f' args args' m m' hf hargs _ hm
    have hcounted : Machine.Kin B printed { m with depth := m.depth + 1 }
        { m' with depth := m'.depth + 1 } :=
      hm.congr rfl rfl hm.output hm.logs hm.reporter hm.functions (congrArg (· + 1) hm.depth)
    obtain ⟨hs, henter⟩ := hcounted.enter hf (hargs.imp fun _ _ hv => hv.1)
    exact ⟨hs.symm, henter⟩
  leave := fun hm =>
    hm.congr rfl rfl hm.output hm.logs hm.reporter hm.functions (congrArg (· - 1) hm.depth)
  cut_leave := False.elim
  cut_grows := fun h _ => h

/-- Runs that differ in the bodies of functions go on in step to their ends. -/
lemma steady (hB : ∀ {b b' : Block}, B b b' → b.Like B b') (printed : Array String) :
    (kin B printed).Steady where
  toLawful := lawful hB printed
  error := fun _ => rfl
  depth := fun hm => hm.depth
  uncut := False.elim

end Simulation.kin

end Lugha
