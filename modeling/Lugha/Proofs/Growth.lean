import Lugha.Proofs.Composition

/-!
# What a run adds to a machine

Evaluation never takes back a printed line or a recorded event, never changes which
log is attached, and ends with as many calls under way as it began with.  The order
`Machine.Grows` says this of two machines, and `Run.Growing` says of a run that it
leads from every machine to a greater one.

A context is growing if all its calls are.  Growth composes, so every piece of a tree is
growing in a growing context.  That the contexts in which programs are evaluated are
growing is shown by recursion on the number of calls that may be nested.
-/

namespace Lugha

/-- The second machine holds all output and all events of the first one, and agrees with
it on the attached log and on the calls under way. -/
structure Machine.Grows (m m' : Machine) : Prop where
  output : m.output.toList <+: m'.output.toList
  logs : m'.logs.size = m.logs.size
  events : ∀ log, m.events log <+: m'.events log
  reporter : m'.reporter = m.reporter
  depth : m'.depth = m.depth

/-- A run after which the machine has only grown. -/
def Run.Growing {α : Type} (r : Run α) : Prop :=
  ∀ m : Machine, m.Grows (.ofResult (r m))

/-- A context whose calls only let the machine grow. -/
def Context.Growing (cx : Context) : Prop :=
  ∀ callee args, Run.Growing (cx.apply callee args)

namespace Machine

namespace Grows

/-- A machine is no smaller than itself. -/
lemma refl (m : Machine) : m.Grows m :=
  ⟨List.prefix_rfl, rfl, fun _ => List.prefix_rfl, rfl, rfl⟩

/-- Growth composes. -/
lemma trans {m₁ m₂ m₃ : Machine} (h : m₁.Grows m₂) (h' : m₂.Grows m₃) : m₁.Grows m₃ where
  output := h.output.trans h'.output
  logs := h'.logs.trans h.logs
  events := fun log => (h.events log).trans (h'.events log)
  reporter := h'.reporter.trans h.reporter
  depth := h'.depth.trans h.depth

end Grows

/-! ### Steps of a machine -/

/-- Binding a name touches the frames only. -/
lemma grows_set (m : Machine) (s : Scope) (name : String) (v : Value) :
    m.Grows (m.set s name v) :=
  ⟨List.prefix_rfl, rfl, fun _ => List.prefix_rfl, rfl, rfl⟩

/-- Assigning a name touches the frames only. -/
lemma grows_assign (m : Machine) (s : Scope) (name : String) (v : Value) :
    m.Grows (m.assign s name v).2 := by
  unfold assign
  split
  · exact ⟨List.prefix_rfl, rfl, fun _ => List.prefix_rfl, rfl, rfl⟩
  · exact .refl m

/-- Printing adds a line. -/
lemma grows_print (m : Machine) (line : String) : m.Grows (m.print line) where
  output := by simp [print]
  logs := rfl
  events := fun _ => List.prefix_rfl
  reporter := rfl
  depth := rfl

/-- Recording adds an event to its log, if that exists, and leaves the other logs alone. -/
lemma events_record (m : Machine) (log other : Nat) (e : Event) :
    (m.record log e).events other =
      m.events other ++ if log = other ∧ log < m.logs.size then [e] else [] := by
  unfold events record
  by_cases hother : other < m.logs.size
  · by_cases hlog : log = other
    · subst hlog
      simp [Array.getD, hother, Array.getElem_modify]
    · simp [Array.getD, hother, Array.getElem_modify, hlog]
  · have hnot : ¬ (log = other ∧ log < m.logs.size) := by omega
    simp [Array.getD, hother, hnot]

/-- Recording adds an event. -/
lemma grows_record (m : Machine) (log : Nat) (e : Event) : m.Grows (m.record log e) where
  output := List.prefix_rfl
  logs := by simp [record]
  events := fun other => by
    rw [events_record]
    exact List.prefix_append _ _
  reporter := rfl
  depth := rfl

end Machine

/-- Growth is kept when runs are put together. -/
def Run.growth : Run.Congruence := .ofOrder Machine.Grows .refl .trans

/-- A growing context, as one of which growth is kept. -/
lemma Context.Growing.contexts {cx : Context} (hcx : cx.Growing) : Run.growth.Contexts cx cx :=
  ⟨rfl, hcx⟩

namespace Run.Growing

variable {α : Type}

/-! ### Runs -/

/-- A run that leaves the machine alone is growing. -/
lemma of_idle {r : Run α} (h : ∀ m, Machine.ofResult (r m) = m) : r.Growing := by
  intro m
  rw [h m]
  exact .refl m

/-- A finished run. -/
lemma pure (a : α) : (Pure.pure a : Run α).Growing := growth.pure a

/-- A failed run. -/
lemma throw (e : EvalError) : (MonadExcept.throw e : Run α).Growing := growth.throw e

/-- A result that is computed without the machine. -/
lemma lift (x : Except EvalError α) : (Run.lift x).Growing := growth.lift x

/-- One run after another. -/
lemma bind {β : Type} {r : Run α} {k : α → Run β} (hr : r.Growing) (hk : ∀ a, (k a).Growing) :
    (r >>= k).Growing :=
  (growth.bind hr hk : growth.rel (r >>= k) (r >>= k))

/-- Going on with the right operand of an operator. -/
lemma withRight {op : BinaryOp} {a : Value} {isLoop : Bool} {right : Run Value}
    (hright : right.Growing) : (op.withRight a isLoop right).Growing :=
  (growth.withRight hright : growth.rel (op.withRight a isLoop right) (op.withRight a isLoop right))

/-- One of two runs. -/
lemma choose {v : Value} {yes no : Run Value} (hyes : yes.Growing) (hno : no.Growing) :
    (v.choose yes no).Growing :=
  (growth.choose hyes hno : growth.rel (v.choose yes no) (v.choose yes no))

/-- Calling a value with arguments, if they have values. -/
lemma applyTo {cx : Context} (hcx : cx.Growing) (callee : Value)
    (args : Except Value (List Value)) : (cx.applyTo callee args).Growing :=
  growth.applyTo hcx.contexts callee args

/-- Going on after the body of a loop. -/
lemma nextRound {last : Value} {again : Value → Run Value} (ha : ∀ v, (again v).Growing)
    (v : Value) : (nextRound last again v).Growing :=
  (growth.nextRound ha v : growth.rel (Lugha.nextRound last again v) (Lugha.nextRound last again v))

/-- Repeating a body. -/
lemma repeatWhile {condition body : Run Value} {isLoop : Bool} (hc : condition.Growing)
    (hb : body.Growing) (checks : Nat) (last : Value) :
    Run.Growing (Lugha.repeatWhile condition isLoop body checks last) := by
  have h : growth.rel (Lugha.repeatWhile condition isLoop body checks last)
      (Lugha.repeatWhile condition isLoop body checks last) :=
    growth.repeatWhile hc hb checks last
  exact h

/-- Settling the value of a run. -/
lemma settled {r : Run Value} (hr : r.Growing) : r.settled.Growing :=
  (growth.settled hr : growth.rel r.settled r.settled)

/-- A call that is counted while it runs. -/
lemma whileCalling {r : Run Value} (hr : r.Growing) : (whileCalling r).Growing := by
  intro m
  have hm := hr { m with depth := m.depth + 1 }
  unfold Lugha.whileCalling
  cases h : r { m with depth := m.depth + 1 } with
  | ok v m' | error e m' =>
    rw [h] at hm
    -- the body ends with as many calls under way as it began with, so one less is what it was
    have hdepth : m'.depth = m.depth + 1 := hm.depth
    exact ⟨hm.output, hm.logs, hm.events, hm.reporter, Nat.sub_eq_of_eq_add hdepth⟩

/-- A run to its end. -/
lemma finish {r : Run Value} (hr : r.Growing) (m : Machine) : m.Grows (r.finish m).2 := by
  rw [Run.finish_machine]
  exact hr m

end Run.Growing

/-! ### Evaluations -/

/-- The steps of a scope let the machine grow. -/
lemma Scope.growing (s : Scope) : Run.growth.InScope s :=
  Run.Congruence.inScope_ofOrder (fun m => m.grows_set s) (fun m => m.grows_assign s)
    fun _ => ⟨List.prefix_rfl, rfl, fun _ => List.prefix_rfl, rfl, rfl⟩

/-- Calling a builtin is growing. -/
lemma Builtin.growing_apply (b : Builtin) (args : List Value) : (b.apply args).Growing :=
  b.changes_apply .refl Machine.grows_print Machine.grows_record args

section Trees

variable {cx : Context} (hcx : cx.Growing) (s : Scope)

include hcx

/-- Evaluating an expression is growing. -/
lemma Expr.growing_eval (e : Expr) : (e.eval cx s).Growing :=
  Run.growth.expr hcx.contexts s.growing e

/-- Evaluating arguments is growing. -/
lemma Expr.growing_evalArgs (es : List Expr) : (Expr.evalArgs cx s es).Growing :=
  Run.growth.arguments hcx.contexts s.growing es

/-- Evaluating a conditional is growing. -/
lemma Conditional.growing_eval (c : Conditional) : (c.eval cx s).Growing :=
  Run.growth.conditional hcx.contexts s.growing c

/-- Evaluating a block is growing. -/
lemma Block.growing_eval (b : Block) : (b.eval cx s).Growing :=
  Run.growth.block hcx.contexts s.growing b

/-- Evaluating statements in order is growing. -/
lemma Stmt.growing_evalList (stmts : List Stmt) (last : Value) :
    (Stmt.evalList cx s stmts last).Growing :=
  Run.growth.statements hcx.contexts s.growing stmts last

/-- Evaluating a statement is growing. -/
lemma Stmt.growing_eval (stmt : Stmt) : (stmt.eval cx s).Growing :=
  Run.growth.statement hcx.contexts s.growing stmt

end Trees

/-! ### Calls -/

/-- Entering a function touches the frames only. -/
lemma Function.grows_enter (f : Function) (args : List Value) (m : Machine) :
    m.Grows (f.enter args m).2 := by
  have hnew : m.Grows (m.enclose f.scope).2 :=
    ⟨List.prefix_rfl, rfl, fun _ => List.prefix_rfl, rfl, rfl⟩
  refine List.foldlRecOn (motive := m.Grows) (f.params.zip args) _ hnew ?_
  exact fun m' hm b _ => hm.trans (m'.grows_set _ b.1 b.2)

/-- Running the body of a function is growing. -/
lemma Function.growing_perform {cx : Context} (hcx : cx.Growing) (f : Function)
    (args : List Value) : (f.perform cx args).Growing :=
  .whileCalling fun m =>
    (f.grows_enter args m).trans (Run.Growing.settled (f.body.growing_eval hcx _) _)

/-- Calling a value is growing if calling functions is. -/
lemma Value.growing_callBy {call : Function → List Value → Run Value}
    (hcall : ∀ f args, (call f args).Growing) (callee : Value) (args : List Value) :
    (callee.callBy call args).Growing := by
  cases callee with
  | function f => exact hcall f args
  | builtin b => exact b.growing_apply args
  | _ => exact .of_idle fun _ => rfl

/-- Calling a function is growing. -/
lemma Function.growing_call (iterations calls : Nat) (f : Function) (args : List Value) :
    Run.Growing (f.call iterations calls args) := by
  induction calls generalizing f args with
  | zero =>
    by_cases hlength : args.length = f.params.length
    · rw [Function.call_zero _ hlength]
      exact .throw _
    · rw [Function.call_of_length_ne _ _ hlength]
      exact .throw _
  | succ calls ih =>
    by_cases hlength : args.length = f.params.length
    · rw [Function.call_succ _ _ hlength]
      refine f.growing_perform ?_ args
      exact Value.growing_callBy ih
    · rw [Function.call_of_length_ne _ _ hlength]
      exact .throw _

/-- Programs are evaluated in growing contexts. -/
lemma Limits.growing_context (l : Limits) (depth : Nat) : (l.context depth).Growing :=
  Value.growing_callBy (Function.growing_call _ _)

/-- Running an expression lets the machine grow. -/
lemma Expr.grows_run (l : Limits) (s : Scope) (e : Expr) (m : Machine) :
    m.Grows (e.run l s m).2 :=
  (e.growing_eval (l.growing_context m.depth) s).finish m

/-- Running a statement lets the machine grow. -/
lemma Stmt.grows_run (l : Limits) (s : Scope) (stmt : Stmt) (m : Machine) :
    m.Grows (stmt.run l s m).2 :=
  (stmt.growing_eval (l.growing_context m.depth) s).finish m

/-- Running a program lets the machine grow. -/
lemma Program.grows_run (l : Limits) (s : Scope) (p : Program) (m : Machine) :
    m.Grows (p.run l s m).2 :=
  (Run.Growing.settled (Stmt.growing_evalList (l.growing_context m.depth) s p.stmts .null)).finish m

end Lugha
