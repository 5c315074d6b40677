import Lugha.Proofs.Frames
import Lugha.Proofs.Simulation

/-!
# Signals and errors are never data

Numbers, texts, truth values, `tupu`, functions and builtins are data.  If all values that
can be reached from a scope are data, then so they are after every evaluation there: no
name is ever bound to a signal or an error, `rudisha` carries data only, and calls are given
data and yield data.

The frames that matter are those reached from the scope through the functions bound in
them, and all frames that are made later.  A machine is `Within` such a set of frames if
the set binds data only and the functions among it were made in scopes inside the set.
The evaluation is compared with itself by a simulation that keeps this true.

What calls are given and yield cannot be seen after a run.  So the run is compared with one
in which all calls are guarded: a call that is given something else than data, or yields
something else, is handed over to any other way of calling.  That both runs are the same
says that no call is ever handed over.
-/

namespace Lugha

/-! ### Data -/

/-- Whether a value is data, neither a signal nor an error. -/
def Value.isData : Value → Bool
  | number _ | text _ | boolean _ | null | function _ | builtin _ => true
  | error _ | jump _ | returned _ => false

/-- The frames of the scope in which a function was made. -/
def Value.Captures (v : Value) (i : Nat) : Prop :=
  ∃ f, v = .function f ∧ i ∈ f.scope.chain

/-- The frames reached from some roots through the functions that are bound on the way. -/
inductive Machine.Reaches (m : Machine) (roots : Nat → Prop) : Nat → Prop
  | root {i : Nat} (hi : roots i) : Reaches m roots i
  | captured {i j : Nat} {b : String × Value} (hi : Reaches m roots i) (hb : b ∈ m.frame i)
      (hj : b.2.Captures j) : Reaches m roots j

/-- Every value bound in a reached frame is data. -/
def Machine.HoldsData (m : Machine) (roots : Nat → Prop) : Prop :=
  ∀ i, m.Reaches roots i → ∀ b ∈ m.frame i, b.2.isData

/-- The frames that an evaluation in a scope can touch: those reached from the scope before
and those that are made later. -/
def Machine.Touchable (m : Machine) (s : Scope) (i : Nat) : Prop :=
  m.Reaches (· ∈ s.chain) i ∨ m.frames.size ≤ i

/-! ### Guarded calls -/

/-- Hands over a call that is not given data, or does not yield data. -/
def guardCall (other call : Value → List Value → Run Value) (callee : Value)
    (args : List Value) : Run Value := fun m =>
  if callee.isData ∧ ∀ v ∈ args, v.isData then
    match call callee args m with
    | .ok v m' => if v.isData then .ok v m' else other callee args m'
    | .error e m' => .error e m'
  else other callee args m

/-- Calls a function whose body makes guarded calls only. -/
def Function.guardedCall (other : Value → List Value → Run Value) (iterations : Nat) :
    Nat → Function → List Value → Run Value
  | calls, f, args =>
    if args.length ≠ f.params.length then
      throw (.arity f.displayName f.params.length args.length)
    else
      match calls with
      | 0 => throw .recursionLimit
      | calls + 1 =>
        f.perform ⟨iterations,
          guardCall other (Value.callBy (Function.guardedCall other iterations calls))⟩ args

/-- The context of an evaluation in which all calls are guarded. -/
def Limits.guardedContext (l : Limits) (other : Value → List Value → Run Value) (depth : Nat) :
    Context :=
  ⟨l.iterations,
    guardCall other (Value.callBy (Function.guardedCall other l.iterations (l.callDepth - depth)))⟩

/-! ### Sets of frames -/

variable {R : Nat → Prop}

/-- Data that leads to frames of a set only. -/
structure Value.Within (R : Nat → Prop) (v : Value) : Prop where
  isData : v.isData
  captures : ∀ i, v.Captures i → R i

/-- The value of an evaluation: data, a jump, or data that is returned. -/
inductive Value.Proper (R : Nat → Prop) : Value → Prop
  | data {v : Value} (h : v.Within R) : Proper R v
  | jump (j : Jump) : Proper R (.jump j)
  | returned {v : Value} (h : v.Within R) : Proper R (.returned v)

/-- A set of frames that binds data, leads to its own frames only and has all frames that
are still to be made. -/
structure Machine.Within (R : Nat → Prop) (m : Machine) : Prop where
  bound : ∀ i, R i → ∀ b ∈ m.frame i, b.2.Within R
  later : ∀ i, m.frames.size ≤ i → R i

/-- A value without captured frames. -/
lemma Value.Within.of_isLiteral {v : Value} (h : v.isLiteral) : v.Within R := by
  refine ⟨?_, ?_⟩
  · cases v <;> first | rfl | cases h
  · rintro i ⟨f, rfl, -⟩
    cases h

/-- Data is no signal. -/
lemma Value.Within.isSignal_eq {v : Value} (h : v.Within R) : v.isSignal = false := by
  have hdata := h.isData
  cases v <;> first | rfl | cases hdata

/-- The value of an evaluation is data unless it is a signal. -/
lemma Value.Proper.within {v : Value} (h : v.Proper R) (hsignal : v.isSignal = false) :
    v.Within R := by
  cases h with
  | data h => exact h
  | jump | returned => cases hsignal

/-- What is returned is data. -/
lemma Value.Proper.within_of_returned {v : Value} (h : (Value.returned v).Proper R) :
    v.Within R := by
  cases h with
  | data h => cases h.isData
  | returned h => exact h

namespace Machine

/-- The frames that an evaluation can touch hold data if those reached from its scope do. -/
lemma HoldsData.within {m : Machine} {s : Scope} (h : m.HoldsData (· ∈ s.chain)) :
    m.Within (m.Touchable s) where
  bound := by
    intro i hi b hb
    rcases hi with hi | hi
    · exact ⟨h i hi b hb, fun j hj => .inl (.captured hi hb hj)⟩
    · rw [frame_of_size_le hi] at hb
      cases hb
  later := fun i hi => .inr hi

/-- All that is reached from a set that leads to its own frames only is in the set. -/
lemma Within.reaches {m : Machine} (h : m.Within R) {i : Nat} (hi : m.Reaches R i) : R i := by
  induction hi with
  | root hi => exact hi
  | captured _ hb hj ih => exact (h.bound _ ih _ hb).captures _ hj

/-- A set that leads to its own frames only holds data. -/
lemma Within.holdsData {m : Machine} (h : m.Within R) : m.HoldsData R :=
  fun i hi b hb => (h.bound i (h.reaches hi) b hb).isData

/-- Frames that hold data. -/
lemma Within.holds {m : Machine} (h : m.Within R) : m.Holds R (Value.Within R) :=
  ⟨h.bound, h.later⟩

/-- Frames that hold data. -/
lemma Holds.within {m : Machine} (h : m.Holds R (Value.Within R)) : m.Within R :=
  ⟨h.bound, h.later⟩

/-- What holds of frames holds of machines with the same frames. -/
lemma Within.congr {m m' : Machine} (h : m.Within R) (hframes : m'.frames = m.frames) :
    m'.Within R :=
  (h.holds.congr hframes).within

end Machine

/-! ### The simulation -/

/-- An evaluation compared with itself, on a set of frames that holds data. -/
def Simulation.withinFrames (R : Nat → Prop) : Simulation where
  value v v' := v = v' ∧ v.Proper R
  result v v' := v = v' ∧ v.Within R
  scope s s' := s = s' ∧ ∀ i ∈ s.chain, R i
  body := Eq
  machine m m' := m = m' ∧ m.Within R
  cut _ _ _ := False

namespace Simulation.withinFrames

/-- Operands are data. -/
lemma operand {v v' : Value} (h : (withinFrames R).operand v v') : v = v' ∧ v.Within R :=
  ⟨h.1.1, h.1.2.within h.2⟩

/-- The operands of a call are data. -/
lemma operands {args args' : List Value}
    (h : List.Forall₂ (withinFrames R).operand args args') :
    args = args' ∧ ∀ v ∈ args, v.Within R := by
  induction h with
  | nil => exact ⟨rfl, nofun⟩
  | cons hv _ ih =>
    obtain ⟨rfl, hdata⟩ := operand hv
    obtain ⟨rfl, hrest⟩ := ih
    exact ⟨rfl, List.forall_mem_cons.2 ⟨hdata, hrest⟩⟩

/-- Builtins yield data and leave the frames alone. -/
lemma builtin_matches (b : Builtin) (args : List Value) :
    (withinFrames R).Matches (withinFrames R).result (b.apply args) (b.apply args) := by
  rintro m m' ⟨rfl, hm⟩
  have hliteral {v : Value} (h : v.isLiteral) : (withinFrames R).result v v :=
    ⟨rfl, .of_isLiteral h⟩
  cases b with
  | andika => exact .ok (hliteral rfl) ⟨rfl, hm.congr rfl⟩
  | hakiki =>
    unfold Builtin.apply Builtin.assert
    dsimp only
    split
    · exact .error ⟨rfl, hm⟩
    · split
      · exact .ok (hliteral rfl) ⟨rfl, hm.congr rfl⟩
      · split
        · exact .ok (hliteral rfl) ⟨rfl, hm⟩
        · exact .error ⟨rfl, hm⟩
  | aina =>
    unfold Builtin.apply
    dsimp only
    split
    · exact .ok (hliteral rfl) ⟨rfl, hm⟩
    · exact .error ⟨rfl, hm⟩

/-- A name means data. -/
lemma resolve_matches {s : Scope} (hs : ∀ i ∈ s.chain, R i) (name : String) :
    (withinFrames R).Matches (withinFrames R).value (s.resolve name) (s.resolve name) := by
  rintro m m' ⟨rfl, hm⟩
  unfold Scope.resolve
  split
  · next hget => exact .ok ⟨rfl, .data (hm.holds.find? hs hget)⟩ ⟨rfl, hm⟩
  · split
    · exact .ok ⟨rfl, .data ⟨rfl, fun _ ⟨_, h, _⟩ => nomatch h⟩⟩ ⟨rfl, hm⟩
    · exact .error ⟨rfl, hm⟩

/-- Assigning data changes a frame of the scope. -/
lemma assign_matches (s : Scope) (name : String) {v : Value} (hv : v.Within R) :
    (withinFrames R).Matches (withinFrames R).value (s.assign name v) (s.assign name v) := by
  rintro m m' ⟨rfl, hm⟩
  unfold Scope.assign Machine.assign
  split
  · next h =>
    split at h
    · cases h
      exact .ok ⟨rfl, .data (.of_isLiteral rfl)⟩ ⟨rfl, (hm.holds.put _ _ hv).within⟩
    · cases h
  · next h =>
    split at h
    · cases h
    · cases h
      exact .error ⟨rfl, hm⟩

/-- Evaluation keeps a set of frames that holds data. -/
lemma lawful : (withinFrames R).Lawful where
  literal := fun h => ⟨rfl, .data (.of_isLiteral h)⟩
  jump := fun j => ⟨rfl, .jump j⟩
  returned := fun h => by
    obtain ⟨rfl, hv⟩ := operand h
    exact ⟨rfl, .returned hv⟩
  settled := fun h => ⟨Value.returned.inj h.1, h.2.within_of_returned⟩
  yielded := operand
  result := fun h => ⟨h.1, .data h.2⟩
  alike := fun h => h.1 ▸ .refl _
  same := fun hv hw => by rw [hv.1.1, hw.1.1]
  resolve := fun name hs => by
    obtain ⟨rfl, hs⟩ := hs
    exact resolve_matches hs name
  makeFunction := by
    rintro s s' name name' params params' b b' ⟨rfl, hs⟩ hname hparams - hbody m m' ⟨rfl, hm⟩
    cases hbody
    unfold Scope.makeFunction
    rw [hname, hparams]
    refine .ok ⟨rfl, .data ⟨rfl, ?_⟩⟩ ⟨rfl, hm.congr rfl⟩
    rintro i ⟨f, hf, hi⟩
    cases hf
    exact hs i hi
  set := by
    rintro s s' v v' m m' name ⟨rfl, hs⟩ hv ⟨rfl, hm⟩
    obtain ⟨rfl, hdata⟩ := operand hv
    exact ⟨rfl, (hm.holds.put _ _ hdata).within⟩
  assign := by
    rintro s s' v v' name ⟨rfl, hs⟩ hv
    obtain ⟨rfl, hdata⟩ := operand hv
    exact assign_matches s name hdata
  builtin := by
    intro args args' b hargs
    obtain ⟨rfl, -⟩ := operands hargs
    exact builtin_matches b args
  body_like := fun hf => by
    cases hf.1
    exact Block.like_refl (fun _ => rfl) _
  enter := by
    rintro f f' args args' m m' ⟨hf, hproper⟩ hargs - ⟨rfl, hm⟩
    cases hf
    obtain ⟨rfl, hdata⟩ := operands hargs
    have hscope : ∀ i ∈ f.scope.chain, R i :=
      fun i hi => (hproper.within rfl).captures i ⟨f, rfl, hi⟩
    have hdepth : ({ m with depth := m.depth + 1 } : Machine).Within R := hm.congr rfl
    obtain ⟨hs, hm⟩ := hdepth.holds.enter hscope hdata
    exact ⟨⟨rfl, hs⟩, rfl, hm.within⟩
  leave := by
    rintro m m' ⟨rfl, hm⟩
    exact ⟨rfl, hm.congr rfl⟩
  cut_leave := id
  cut_grows := fun h _ => h

end Simulation.withinFrames

/-! ### Guards are never used -/

open Simulation

/-- A guarded call of data with data does the same as the call, if that yields data. -/
lemma guardCall_matches (other : Value → List Value → Run Value)
    {call call' : Value → List Value → Run Value} {f f' : Value} {args args' : List Value}
    (hf : (withinFrames R).operand f f')
    (hargs : List.Forall₂ (withinFrames R).operand args args')
    (hcall : (withinFrames R).Matches (withinFrames R).result (call f args) (call' f' args')) :
    (withinFrames R).Matches (withinFrames R).result (guardCall other call f args)
      (call' f' args') := by
  intro m m' hm
  have hgiven : f.isData ∧ ∀ v ∈ args, v.isData :=
    ⟨(withinFrames.operand hf).2.isData, fun v hv => ((withinFrames.operands hargs).2 v hv).isData⟩
  have hagree := hcall hm
  unfold guardCall
  rw [if_pos hgiven]
  generalize call f args m = x at hagree
  generalize call' f' args' m' = x' at hagree
  cases hagree with
  | @ok v v' m m' hv hm =>
    have hdata : v.isData := hv.2.isData
    simp only [hdata, if_true]
    exact .ok hv hm
  | error hm => exact .error hm
  | cut hcut => exact hcut.elim

/-- Guarded and other calls with the wrong number of arguments fail alike. -/
lemma Function.guardedCall_of_length_ne (other : Value → List Value → Run Value)
    (iterations calls : Nat) {f : Function} {args : List Value}
    (h : args.length ≠ f.params.length) :
    f.guardedCall other iterations calls args =
      throw (.arity f.displayName f.params.length args.length) := by
  unfold Function.guardedCall
  rw [if_pos h]

/-- A guarded call that may be nested runs the body. -/
lemma Function.guardedCall_succ (other : Value → List Value → Run Value)
    (iterations calls : Nat) {f : Function} {args : List Value}
    (h : args.length = f.params.length) :
    f.guardedCall other iterations (calls + 1) args =
      f.perform ⟨iterations,
        guardCall other (Value.callBy (Function.guardedCall other iterations calls))⟩ args := by
  rw [Function.guardedCall, if_neg (not_not_intro h)]

/-- A guarded call that may not be nested fails. -/
lemma Function.guardedCall_zero (other : Value → List Value → Run Value) (iterations : Nat)
    {f : Function} {args : List Value} (h : args.length = f.params.length) :
    f.guardedCall other iterations 0 args = throw .recursionLimit := by
  rw [Function.guardedCall, if_neg (not_not_intro h)]

/-- A context and its guarded twin agree if their calls of functions do. -/
lemma guardCall_contexts (other : Value → List Value → Run Value) (iterations : Nat)
    {call call' : Function → List Value → Run Value} (hcall : (withinFrames R).Calls call call')
    (hgrowing : ∀ f args, (call' f args).Growing) :
    (withinFrames R).Contexts ⟨iterations, guardCall other (Value.callBy call)⟩
      ⟨iterations, Value.callBy call'⟩ where
  growing := Value.growing_callBy hgrowing
  iterations := Nat.le_refl _
  exhausted := fun h => absurd h (Nat.lt_irrefl _)
  apply := fun hf hargs =>
    guardCall_matches other hf hargs (Value.callBy_matches withinFrames.lawful hcall hf hargs)

/-- Calls of functions do the same as guarded ones. -/
lemma Function.guardedCall_matches (other : Value → List Value → Run Value)
    (iterations calls : Nat) :
    (withinFrames R).Calls (Function.guardedCall other iterations calls)
      (Function.call iterations calls) := by
  induction calls with
  | zero =>
    intro f f' args args' hf hargs
    cases hf.1
    obtain ⟨rfl, -⟩ := withinFrames.operands hargs
    by_cases hlength : args.length = f.params.length
    · rw [Function.guardedCall_zero _ _ hlength, Function.call_zero _ hlength]
      exact .throw _
    · rw [Function.guardedCall_of_length_ne _ _ _ hlength,
        Function.call_of_length_ne _ _ hlength]
      exact .throw _
  | succ calls ih =>
    -- the calls in the body are guarded too, with one nested call less
    have hcx := guardCall_contexts other iterations ih (Function.growing_call iterations calls)
    intro f f' args args' hf hargs
    cases hf.1
    obtain ⟨rfl, -⟩ := withinFrames.operands hargs
    by_cases hlength : args.length = f.params.length
    · rw [Function.guardedCall_succ _ _ _ hlength, Function.call_succ _ _ hlength]
      exact Function.perform_matches withinFrames.lawful hcx hf hargs hlength
    · rw [Function.guardedCall_of_length_ne _ _ _ hlength,
        Function.call_of_length_ne _ _ hlength]
      exact .throw _

/-- Contexts in which programs are evaluated agree with the guarded ones. -/
lemma Limits.guardedContext_contexts (l : Limits) (other : Value → List Value → Run Value)
    (depth : Nat) : (withinFrames R).Contexts (l.guardedContext other depth) (l.context depth) :=
  guardCall_contexts other l.iterations (Function.guardedCall_matches other _ _)
    (Function.growing_call _ _)

/-! ### Evaluation among data -/

/-- Results that agree are equal, and keep to the frames. -/
lemma Simulation.withinFrames.eq_of_agree {V : Value → Prop}
    {x x' : EStateM.Result EvalError Machine Value}
    (h : (withinFrames R).Agree (fun v v' => v = v' ∧ V v) x x') :
    x = x' ∧ (Machine.ofResult x').Within R ∧ ∀ {v m'}, x' = .ok v m' → V v := by
  cases h with
  | ok hv hm =>
    obtain ⟨rfl, hv⟩ := hv
    obtain ⟨rfl, hm⟩ := hm
    refine ⟨rfl, hm, fun h => ?_⟩
    cases h
    exact hv
  | error hm =>
    obtain ⟨rfl, hm⟩ := hm
    exact ⟨rfl, hm, nofun⟩
  | cut hcut => exact hcut.elim

/-- A run that yields data ends with an error exactly if it fails. -/
lemma Run.isError_finish_iff {r : Run Value} {m : Machine}
    (h : ∀ {v m'}, r m = .ok v m' → v.isData) :
    (r.finish m).1.isError ↔ ∃ e m', r m = .error e m' := by
  unfold Run.finish
  cases hr : r m with
  | ok v m' =>
    have hdata := h hr
    cases v <;> simp_all [Value.isError, Value.isData]
  | error e m' => simp [Value.isError]

/-- What holds of an evaluation in a scope that reaches data only: afterwards all frames that
it can have touched hold data, all its calls are given and yield data, and its value, if it has
one, satisfies `V`. -/
structure KeepsData (l : Limits) (s : Scope) (m : Machine) (V : (Nat → Prop) → Value → Prop)
    (r : Context → Run Value) : Prop where
  frames : (Run.finish (r (l.context m.depth)) m).2.HoldsData (m.Touchable s)
  calls : ∀ other, r (l.guardedContext other m.depth) m = r (l.context m.depth) m
  value : ∀ {v m'}, r (l.context m.depth) m = .ok v m' → V (m.Touchable s) v

/-- An evaluation keeps data if it does the same when its calls are guarded. -/
lemma KeepsData.of_matches {l : Limits} {s : Scope} {m : Machine}
    {V : (Nat → Prop) → Value → Prop} {r : Context → Run Value}
    (hm : m.HoldsData (· ∈ s.chain))
    (hr : ∀ other, (withinFrames (m.Touchable s)).Matches
      (fun v v' => v = v' ∧ V (m.Touchable s) v) (r (l.guardedContext other m.depth))
      (r (l.context m.depth))) :
    KeepsData l s m V r := by
  have heq other := withinFrames.eq_of_agree (hr other ⟨rfl, hm.within⟩)
  obtain ⟨-, hframes, hvalue⟩ := heq (l.context m.depth).apply
  refine ⟨?_, fun other => (heq other).1, hvalue⟩
  rw [Run.finish_machine]
  exact hframes.holdsData

/-- Signals and errors are never data.  If all values that can be reached from a scope are
data, they still are after any evaluation there, no call is given or yields anything else,
only data is returned, and a program yields data unless it fails. -/
theorem eval_keepsData (l : Limits) (s : Scope) (m : Machine) (hm : m.HoldsData (· ∈ s.chain)) :
    (∀ e : Expr, KeepsData l s m Value.Proper fun cx => e.eval cx s) ∧
    (∀ stmt : Stmt, KeepsData l s m Value.Proper fun cx => stmt.eval cx s) ∧
    (∀ p : Program, KeepsData l s m Value.Within (fun cx => p.eval cx s) ∧
      ((p.run l s m).1.isError ↔ ∃ e m', p.eval (l.context m.depth) s m = .error e m')) ∧
    (∀ (f : Function) (args : List Value), (∀ i ∈ f.scope.chain, m.Touchable s i) →
      (∀ v ∈ args, v.Within (m.Touchable s)) →
        KeepsData l s m Value.Within fun cx => cx.apply (.function f) args) := by
  have hS := withinFrames.lawful (R := m.Touchable s)
  have hs : (withinFrames (m.Touchable s)).scope s s := ⟨rfl, fun i hi => .inl (.root hi)⟩
  have hcx other := l.guardedContext_contexts (R := m.Touchable s) other m.depth
  refine ⟨fun e => .of_matches hm fun other => ?_, fun stmt => .of_matches hm fun other => ?_,
    fun p => ?_, fun f args hf hargs => .of_matches hm fun other => ?_⟩
  · exact e.eval_matches hS (hcx other) hs e (e.like_refl fun _ => rfl)
  · exact stmt.eval_matches hS (hcx other) hs stmt (stmt.like_refl fun _ => rfl)
  · have hp : KeepsData l s m Value.Within fun cx => p.eval cx s :=
      .of_matches hm fun other => Program.eval_matches hS (hcx other) hs
        (Stmt.likeList_refl (fun _ => rfl) _)
    exact ⟨hp, Run.isError_finish_iff fun h => (hp.value h).isData⟩
  · have hfunction : (withinFrames (m.Touchable s)).operand (.function f) (.function f) := by
      refine ⟨⟨rfl, .data ⟨rfl, ?_⟩⟩, rfl⟩
      rintro i ⟨g, hg, hi⟩
      cases hg
      exact hf i hi
    have hoperands : List.Forall₂ (withinFrames (m.Touchable s)).operand args args :=
      List.forall₂_same.2 fun v hv => ⟨⟨rfl, .data (hargs v hv)⟩, (hargs v hv).isSignal_eq⟩
    exact (hcx other).apply hfunction hoperands

/-- A function that returns its argument if that is true, and else leaves a loop that is not
there: its scope holds data before the calls and after them. -/
theorem eval_keepsData_of_bound_function :
    let body : Block := .mk .synthetic
      [.expr (.conditional (.ifThen .synthetic (.name .synthetic "x")
        (.mk .synthetic [.returnValue .synthetic (.name .synthetic "x")]))),
      .breakLoop .synthetic]
    let s : Scope := ⟨0, []⟩
    let m : Machine := { frames := #[[("f", .function ⟨0, some "f", ["x"], body, s⟩)]] }
    let l : Limits := ⟨1, 1⟩
    let call (b : Bool) : Program :=
      ⟨[.expr (.call .synthetic (.name .synthetic "f") [.boolean .synthetic b])], .synthetic⟩
    m.HoldsData (· ∈ s.chain) ∧
    ((call true).run l s m).1 = .boolean true ∧
    ((call true).run l s m).2.HoldsData (m.Touchable s) ∧
    ((call false).run l s m).1 = .error (.strayJump .vunja) ∧
    ((call false).run l s m).2.HoldsData (m.Touchable s) := by
  intro body s m l call
  have hm : m.HoldsData (· ∈ s.chain) := by
    intro i _ b hb
    match i with
    | 0 =>
      cases List.mem_singleton.1 hb
      rfl
    | i + 1 => cases hb
  exact ⟨hm, rfl, ((eval_keepsData l s m hm).2.2.1 (call true)).1.frames, rfl,
    ((eval_keepsData l s m hm).2.2.1 (call false)).1.frames⟩

end Lugha
