import Lugha.Proofs.Growth

/-!
# The frame of an evaluation

However an evaluation ends, with a value, a signal or an error from any depth, it leaves the
attached log and the number of calls under way as they were, and what was printed and recorded
before stands before all that is added.  This is `Machine.Grows`.  Limits and builtins are no part
of the machine, so nothing can change them.

How many calls are under way in the middle of an evaluation cannot be seen after it.  So an
evaluation is compared with one that is watched: where the evaluation itself or the body of a
function would begin with more calls under way than the limit allows, the watched one is handed over
to any other run.  That both do the same says that this never happens.  Calls are counted in one
place only, before the body of a function begins, so nothing else has to be watched.

The two evaluations have different contexts, whose calls do the same on machines with a given number
of calls under way.  That number and the calls that may still be nested make up the limit, and this
is kept from each call to those in its body.
-/

namespace Lugha

/-! ### Watched evaluations -/

/-- Hands over to another run if more calls are under way than a limit. -/
def Run.watched (limit : Nat) (other r : Run Value) : Run Value := fun m =>
  if m.depth ≤ limit then r m else other m

/-- Calls a function, and watches its body and those of all functions that are called there. -/
def Function.watchedCall (l : Limits) (other : Run Value) :
    Nat → Function → List Value → Run Value
  | calls, f, args =>
    if args.length ≠ f.params.length then
      throw (.arity f.displayName f.params.length args.length)
    else
      match calls with
      | 0 => throw .recursionLimit
      | calls + 1 =>
        whileCalling (Run.watched l.callDepth other
          (f.inside ⟨l.iterations, Value.callBy (Function.watchedCall l other calls)⟩ args))

/-- The context of an evaluation in which all calls are watched. -/
def Limits.watchedContext (l : Limits) (other : Run Value) (depth : Nat) : Context :=
  ⟨l.iterations, Value.callBy (Function.watchedCall l other (l.callDepth - depth))⟩

/-! ### Runs that do the same at a depth -/

/-- Runs that do the same on all machines with a given number of calls under way, and end with as
many. -/
def Run.sameAt (depth : Nat) : Run.Congruence where
  rel r r' := ∀ m : Machine, m.depth = depth →
    r' m = r m ∧ (Machine.ofResult (r m)).depth = depth
  pure _ _ hm := ⟨rfl, hm⟩
  throw _ _ hm := ⟨rfl, hm⟩
  bind := by
    intro α β r r' k k' hr hk m hm
    obtain ⟨hsame, hdepth⟩ := hr m hm
    rw [Run.bind_eq, Run.bind_eq, hsame]
    cases h : r m with
    | error e m₁ =>
      rw [h] at hdepth
      exact ⟨rfl, hdepth⟩
    | ok a m₁ =>
      rw [h] at hdepth
      exact hk a m₁ hdepth

section SameAt

variable {depth : Nat}

/-- A growing run does the same as itself. -/
lemma Run.Growing.sameAt {α : Type} {r : Run α} (hr : r.Growing) : (Run.sameAt depth).rel r r :=
  fun m hm => ⟨rfl, (hr m).depth.trans hm⟩

/-- The steps of a scope. -/
lemma Scope.sameAt (s : Scope) : (Run.sameAt depth).InScope s where
  resolve name := Run.Growing.sameAt (s.growing.resolve name)
  bind name v := Run.Growing.sameAt (s.growing.bind name v)
  assign name v := Run.Growing.sameAt (s.growing.assign name v)
  makeFunction name params body := Run.Growing.sameAt (s.growing.makeFunction name params body)
  declare name params body := Run.Growing.sameAt (s.growing.declare name params body)

/-- A call is counted while its body runs. -/
lemma Run.sameAt_whileCalling {r r' : Run Value} (h : (Run.sameAt (depth + 1)).rel r r') :
    (Run.sameAt depth).rel (whileCalling r) (whileCalling r') := by
  intro m hm
  obtain ⟨hsame, hdepth⟩ := h { m with depth := m.depth + 1 } (congrArg (· + 1) hm)
  unfold whileCalling
  rw [hsame]
  refine ⟨rfl, ?_⟩
  cases hr : r { m with depth := m.depth + 1 } with
  | ok v m₁ | error e m₁ =>
    rw [hr] at hdepth
    exact Nat.sub_eq_of_eq_add hdepth

/-- Watching changes nothing while no more calls are under way than the limit allows. -/
lemma Run.sameAt_watched {limit : Nat} (hlimit : depth ≤ limit) (other : Run Value)
    {r r' : Run Value} (h : (Run.sameAt depth).rel r r') :
    (Run.sameAt depth).rel r (Run.watched limit other r') := by
  intro m hm
  have hunder : m.depth ≤ limit := hm ▸ hlimit
  obtain ⟨hsame, hdepth⟩ := h m hm
  refine ⟨?_, hdepth⟩
  rw [Run.watched, if_pos hunder, hsame]

/-- The body of a function in two contexts. -/
lemma Function.sameAt_inside {cx cx' : Context} (hcx : (Run.sameAt depth).Contexts cx cx')
    (f : Function) (args : List Value) :
    (Run.sameAt depth).rel (f.inside cx args) (f.inside cx' args) := by
  intro m hm
  have hentered : (f.enter args m).2.depth = depth := (f.grows_enter args m).depth.trans hm
  have hbody := (Run.sameAt depth).block hcx (f.enter args m).1.sameAt f.body
  exact (Run.sameAt depth).settled hbody (f.enter args m).2 hentered

/-- Calls and watched calls do the same, if the calls under way and those that may still be nested
are within the limit. -/
lemma Function.sameAt_watchedCall {l : Limits} (other : Run Value) {calls : Nat}
    (hlimit : depth + calls ≤ l.callDepth) (f : Function) (args : List Value) :
    (Run.sameAt depth).rel (f.call l.iterations calls args) (f.watchedCall l other calls args) := by
  induction calls generalizing depth f args with
  | zero =>
    by_cases hlength : args.length = f.params.length
    · rw [Function.call_zero _ hlength, Function.watchedCall, if_neg (not_not_intro hlength)]
      exact (Run.sameAt depth).throw _
    · rw [Function.call_of_length_ne _ _ hlength, Function.watchedCall, if_pos hlength]
      exact (Run.sameAt depth).throw _
  | succ calls ih =>
    by_cases hlength : args.length = f.params.length
    · -- in the body one more call is under way, and one less may be nested
      have hinner : depth + 1 + calls ≤ l.callDepth := by omega
      have hcx : (Run.sameAt (depth + 1)).Contexts
          ⟨l.iterations, Value.callBy (Function.call l.iterations calls)⟩
          ⟨l.iterations, Value.callBy (Function.watchedCall l other calls)⟩ :=
        ⟨rfl, (Run.sameAt (depth + 1)).callBy (ih hinner) fun b args => (b.growing_apply args).sameAt⟩
      have hunder : depth + 1 ≤ l.callDepth := by omega
      rw [Function.call_succ _ _ hlength, Function.watchedCall, if_neg (not_not_intro hlength)]
      exact Run.sameAt_whileCalling (Run.sameAt_watched hunder other (f.sameAt_inside hcx args))
    · rw [Function.call_of_length_ne _ _ hlength, Function.watchedCall, if_pos hlength]
      exact (Run.sameAt depth).throw _

/-- Programs are evaluated in contexts that do the same when they are watched. -/
lemma Limits.sameAt_context {l : Limits} (hdepth : depth ≤ l.callDepth) (other : Run Value) :
    (Run.sameAt depth).Contexts (l.context depth) (l.watchedContext other depth) := by
  have hlimit : depth + (l.callDepth - depth) ≤ l.callDepth := by omega
  have hcall := Function.sameAt_watchedCall (l := l) other hlimit
  exact ⟨rfl, (Run.sameAt depth).callBy hcall fun b args => (b.growing_apply args).sameAt⟩

end SameAt

/-! ### Evaluation -/

/-- What an evaluation on a machine leaves alone: afterwards the machine has only grown, and the
evaluation does the same when it is watched, whatever it would be handed over to. -/
structure KeepsFrame (l : Limits) (m : Machine) (r : Context → Run Value) : Prop where
  grows : m.Grows (Run.finish (r (l.context m.depth)) m).2
  within : ∀ other, Run.watched l.callDepth other (r (l.watchedContext other m.depth)) m =
    r (l.context m.depth) m

/-- An evaluation that is put together from steps and calls keeps the frame. -/
lemma KeepsFrame.of_sameAt {l : Limits} {m : Machine} (hm : m.depth ≤ l.callDepth)
    {r : Context → Run Value} (hgrowing : (r (l.context m.depth)).Growing)
    (hsame : ∀ {cx cx'}, (Run.sameAt m.depth).Contexts cx cx' →
      (Run.sameAt m.depth).rel (r cx) (r cx')) : KeepsFrame l m r where
  grows := hgrowing.finish m
  within other := (Run.sameAt_watched hm other (hsame (l.sameAt_context hm other)) m rfl).1

/-- Evaluation keeps its frame.

On every machine with no more calls under way than the limit allows, whatever an expression, a
statement or a program does there and however it ends: as many calls are under way after it as
before, the same log is attached, the printed lines and the events of each log are those from
before with none or more added at their end, and at no time are more calls under way than the limit
allows. -/
theorem eval_keepsFrame (l : Limits) (s : Scope) (m : Machine) (hm : m.depth ≤ l.callDepth) :
    (∀ e : Expr, KeepsFrame l m fun cx => e.eval cx s) ∧
    (∀ stmt : Stmt, KeepsFrame l m fun cx => stmt.eval cx s) ∧
    (∀ p : Program, KeepsFrame l m fun cx => p.eval cx s) := by
  have hcx := l.growing_context m.depth
  refine ⟨fun e => .of_sameAt hm (e.growing_eval hcx s) fun h => ?_,
    fun stmt => .of_sameAt hm (stmt.growing_eval hcx s) fun h => ?_,
    fun p => .of_sameAt hm (Run.growth.program hcx.contexts s.growing p) fun h => ?_⟩
  · exact (Run.sameAt m.depth).expr h s.sameAt e
  · exact (Run.sameAt m.depth).statement h s.sameAt stmt
  · exact (Run.sameAt m.depth).program h s.sameAt p

/-- A function that prints a line, reports a failed assertion and then calls itself as an operand:
the second call is refused, and its error leaves an operator, a body and the first call. -/
theorem eval_keepsFrame_refused_call :
    let name (n : String) : Expr := .name .synthetic n
    let call (n : String) (args : List Expr) : Expr := .call .synthetic (name n) args
    let body : Block := .mk .synthetic
      [.expr (call "andika" [.text .synthetic "mbili"]),
       .expr (call "hakiki" [.boolean .synthetic false]),
       .expr (.unary .synthetic .invert (call "f" []))]
    let m : Machine :=
      { frames := #[[("f", .function ⟨0, some "f", [], body, ⟨0, []⟩⟩)]], output := #["moja"],
        logs := #[#[⟨true, "Test"⟩]], reporter := some 0, depth := 1 }
    let l : Limits := ⟨1, 2⟩
    let after := (call "f" []).run l ⟨0, []⟩ m
    m.depth ≤ l.callDepth ∧ after.1 = .error .recursionLimit ∧ m.Grows after.2 ∧
      after.2.depth = 1 ∧ after.2.output = #["moja", "mbili"] ∧
      after.2.events 0 = [⟨true, "Test"⟩, ⟨false, "Test"⟩] ∧
      ∀ other, Run.watched 2 other ((call "f" []).eval (l.watchedContext other 1) ⟨0, []⟩) m =
        .error .recursionLimit after.2 := by
  intro name call body m l after
  have hm : m.depth ≤ l.callDepth := by decide
  have hframe := (eval_keepsFrame l ⟨0, []⟩ m hm).1 (call "f" [])
  exact ⟨hm, rfl, hframe.grows, rfl, rfl, rfl, fun other => (hframe.within other).trans rfl⟩

end Lugha
