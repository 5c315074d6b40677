import Lugha.Eval
import Mathlib.Tactic.Common

/-!
# Runs that are put together

An evaluation is put together from a few kinds of runs: finished and failed ones, the steps that a
scope takes, and calls of values.  A `Run.Congruence` is a relation between runs that holds of
finished and failed runs and is kept when one run follows another.  It holds between the evaluations
of a tree in two contexts as soon as it holds between their calls and between the steps of the
scope.  The proof follows the tree, and it is made here once for all such relations.

A property of single runs is a relation that does not look at the second run.  `Run.Congruence.ofOrder`
makes one from any way in which machines may change that composes.
-/

namespace Lugha

/-! ### Runs one after the other -/

/-- The machine with which a result ends. -/
def Machine.ofResult {α : Type} : EStateM.Result EvalError Machine α → Machine
  | .ok _ m | .error _ m => m

@[simp] lemma Machine.ofResult_ok {α : Type} (a : α) (m : Machine) :
    ofResult (.ok a m) = m := rfl

@[simp] lemma Machine.ofResult_error {α : Type} (e : EvalError) (m : Machine) :
    ofResult (.error e m : EStateM.Result EvalError Machine α) = m := rfl

/-- How a run goes on with a second one. -/
lemma Run.bind_eq {α β : Type} (r : Run α) (k : α → Run β) (m : Machine) :
    (r >>= k) m =
      match r m with
      | .ok a m' => k a m'
      | .error e m' => .error e m' := by
  change EStateM.bind r k m = _
  unfold EStateM.bind
  cases r m <;> rfl

/-- How a run goes on with the value of an operand. -/
lemma withOperand_eq (isLoop : Bool) (r : Run Value) (k : Value → Run Value) (m : Machine) :
    withOperand isLoop r k m =
      match r m with
      | .ok v m' =>
        if (v.asOperand isLoop).isSignal then .ok (v.asOperand isLoop) m'
        else k (v.asOperand isLoop) m'
      | .error e m' => .error e m' := by
  unfold withOperand
  rw [Run.bind_eq]
  cases r m with
  | error e m' => rfl
  | ok v m' =>
    cases h : (v.asOperand isLoop).isSignal with
    | false => simp [h]
    | true =>
      simp only [h, if_true]
      rfl

/-- How a loop goes on after its body: with the earlier value after `endelea`, not at all
after another signal, and otherwise with the value of the body. -/
def nextRound (last : Value) (again : Value → Run Value) : Value → Run Value
  | .jump .endelea => again last
  | v => if v.isSignal then pure v else again v

/-- One check of a condition and the round after it. -/
lemma repeatWhile_succ (condition body : Run Value) (isLoop : Bool) (checks : Nat)
    (last : Value) :
    repeatWhile condition isLoop body (checks + 1) last =
      withOperand isLoop condition fun v =>
        v.choose (body >>= nextRound last (repeatWhile condition isLoop body checks))
          (pure last) := by
  funext m
  rw [withOperand_eq, repeatWhile]
  cases condition m with
  | error e m => rfl
  | ok v m =>
    unfold Value.choose
    cases htruthy : (v.asOperand isLoop).truthy with
    | false =>
      simp only [htruthy, Bool.false_eq_true, if_false]
      rfl
    | true =>
      simp only [htruthy, if_true]
      rw [Run.bind_eq]
      cases body m with
      | error e m => rfl
      | ok w m =>
        cases w with
        | jump j => cases j <;> rfl
        | _ => rfl

/-- The machine after a run is that of its result. -/
lemma Run.finish_machine (r : Run Value) (m : Machine) : (r.finish m).2 = .ofResult (r m) := by
  unfold Run.finish
  cases r m <;> rfl

/-! ### Relations between runs -/

/-- A relation between runs that is kept when runs are put together. -/
structure Run.Congruence where
  rel : {α : Type} → Run α → Run α → Prop
  pure : ∀ {α : Type} (a : α), rel (Pure.pure a : Run α) (Pure.pure a)
  throw : ∀ {α : Type} (e : EvalError), rel (MonadExcept.throw e : Run α) (MonadExcept.throw e)
  bind : ∀ {α β : Type} {r r' : Run α} {k k' : α → Run β}, rel r r' →
    (∀ a, rel (k a) (k' a)) → rel (r >>= k) (r' >>= k')

namespace Run.Congruence

variable {α : Type} (C : Run.Congruence)

/-- A result that is computed without the machine. -/
lemma lift (x : Except EvalError α) : C.rel (Run.lift x) (Run.lift x) := by
  cases x with
  | ok a => exact C.pure a
  | error e => exact C.throw e

/-- Going on with an operand. -/
lemma withOperand {isLoop : Bool} {r r' : Run Value} {k k' : Value → Run Value} (hr : C.rel r r')
    (hk : ∀ v, C.rel (k v) (k' v)) :
    C.rel (withOperand isLoop r k) (withOperand isLoop r' k') := by
  refine C.bind hr fun v => ?_
  split
  · exact C.pure _
  · exact hk _

/-- Putting an argument before further ones. -/
lemma withArgument {isLoop : Bool} {r r' : Run Value} {rest rest' : Run (Except Value (List Value))}
    (hr : C.rel r r') (hrest : C.rel rest rest') :
    C.rel (withArgument isLoop r rest) (withArgument isLoop r' rest') := by
  refine C.bind hr fun v => ?_
  split
  · exact C.pure _
  · refine C.bind hrest fun vs => ?_
    split <;> exact C.pure _

/-- Going on with the right operand of an operator. -/
lemma withRight {op : BinaryOp} {a : Value} {isLoop : Bool} {right right' : Run Value}
    (hright : C.rel right right') :
    C.rel (op.withRight a isLoop right) (op.withRight a isLoop right') := by
  unfold BinaryOp.withRight
  split
  · exact C.pure _
  · exact C.withOperand hright fun b => C.lift _

/-- One of two runs. -/
lemma choose {v : Value} {yes yes' no no' : Run Value} (hyes : C.rel yes yes')
    (hno : C.rel no no') : C.rel (v.choose yes no) (v.choose yes' no') := by
  unfold Value.choose
  split
  · exact hyes
  · exact hno

/-- Going on after the body of a loop. -/
lemma nextRound {last : Value} {again again' : Value → Run Value}
    (hagain : ∀ v, C.rel (again v) (again' v)) (v : Value) :
    C.rel (nextRound last again v) (nextRound last again' v) := by
  unfold Lugha.nextRound
  split
  · exact hagain last
  · split
    · exact C.pure v
    · exact hagain v

/-- Repeating a body. -/
lemma repeatWhile {condition condition' body body' : Run Value} {isLoop : Bool}
    (hcondition : C.rel condition condition') (hbody : C.rel body body') (checks : Nat)
    (last : Value) :
    C.rel (repeatWhile condition isLoop body checks last)
      (repeatWhile condition' isLoop body' checks last) := by
  induction checks generalizing last with
  | zero => exact C.throw .infiniteLoop
  | succ checks ih =>
    rw [repeatWhile_succ, repeatWhile_succ]
    exact C.withOperand hcondition fun v =>
      C.choose (C.bind hbody (C.nextRound ih)) (C.pure last)

/-- Settling the value of a run. -/
lemma settled {r r' : Run Value} (hr : C.rel r r') : C.rel r.settled r'.settled := by
  refine C.bind hr fun v => ?_
  cases v with
  | jump j => exact C.throw _
  | _ => exact C.pure _

/-! ### Trees -/

/-- A relation that holds of the steps that a scope takes. -/
structure InScope (s : Scope) : Prop where
  resolve : ∀ name, C.rel (s.resolve name) (s.resolve name)
  bind : ∀ name v, C.rel (s.bind name v) (s.bind name v)
  assign : ∀ name v, C.rel (s.assign name v) (s.assign name v)
  makeFunction : ∀ name params body,
    C.rel (s.makeFunction name params body) (s.makeFunction name params body)
  declare : ∀ name params body, C.rel (s.declare name params body) (s.declare name params body)

/-- A relation that holds between the calls of two contexts. -/
structure Contexts (cx cx' : Context) : Prop where
  iterations : cx'.iterations = cx.iterations
  apply : ∀ callee args, C.rel (cx.apply callee args) (cx'.apply callee args)

/-- Calling a value with arguments, if they have values. -/
lemma applyTo {cx cx' : Context} (hcx : C.Contexts cx cx') (callee : Value)
    (args : Except Value (List Value)) : C.rel (cx.applyTo callee args) (cx'.applyTo callee args) := by
  cases args with
  | ok args => exact hcx.apply callee args
  | error signal => exact C.pure signal

end Run.Congruence

/-- A statement that declares no function is evaluated as its expression. -/
lemma Stmt.eval_expr {value : Expr} (h : (Stmt.expr value).declared? = none) (cx : Context)
    (s : Scope) : (Stmt.expr value).eval cx s = value.eval cx s := by
  cases value with
  | function span name params body =>
    cases name with
    | none => rw [Stmt.eval]; simp
    | some name => simp [declared?] at h
  | _ => rw [Stmt.eval]; simp

/-- A statement that declares a function is the literal of that function. -/
lemma Stmt.eq_function_of_declared {value : Expr} {name : Ident}
    (h : (Stmt.expr value).declared? = some name) :
    ∃ span params body, value = .function span (some name) params body := by
  cases value with
  | function span name' params body =>
    obtain rfl : name' = some name := h
    exact ⟨span, params, body, rfl⟩
  | _ => simp [declared?] at h

namespace Run.Congruence

variable (C : Run.Congruence) {cx cx' : Context} {s : Scope}

mutual

/-- Evaluating an expression in two contexts. -/
lemma expr (hcx : C.Contexts cx cx') (hs : C.InScope s) :
    ∀ e : Expr, C.rel (e.eval cx s) (e.eval cx' s)
  | .number _ _ | .text _ _ | .boolean _ _ | .null _ => by
    rw [Expr.eval, Expr.eval]
    exact C.pure _
  | .name _ n => by
    rw [Expr.eval, Expr.eval]
    exact hs.resolve n
  | .call _ callee args => by
    rw [Expr.eval, Expr.eval]
    exact C.withOperand (expr hcx hs callee) fun f =>
      C.bind (arguments hcx hs args) (C.applyTo hcx f)
  | .binary _ op left right => by
    rw [Expr.eval, Expr.eval]
    exact C.withOperand (expr hcx hs left) fun a => C.withRight (expr hcx hs right)
  | .unary _ op operand => by
    rw [Expr.eval, Expr.eval]
    exact C.withOperand (expr hcx hs operand) fun v => C.lift _
  | .conditional branches => by
    rw [Expr.eval, Expr.eval]
    exact conditional hcx hs branches
  | .loop _ condition body => by
    rw [Expr.eval, Expr.eval, hcx.iterations]
    exact C.repeatWhile (expr hcx hs condition) (block hcx hs body) _ _
  | .function _ name params body => by
    rw [Expr.eval, Expr.eval]
    exact hs.makeFunction name params body
  | .paren _ inner => by
    rw [Expr.eval, Expr.eval]
    exact expr hcx hs inner

/-- Evaluating arguments in two contexts. -/
lemma arguments (hcx : C.Contexts cx cx') (hs : C.InScope s) :
    ∀ es : List Expr, C.rel (Expr.evalArgs cx s es) (Expr.evalArgs cx' s es)
  | [] => by
    rw [Expr.evalArgs, Expr.evalArgs]
    exact C.pure _
  | e :: es => by
    rw [Expr.evalArgs, Expr.evalArgs]
    exact C.withArgument (expr hcx hs e) (arguments hcx hs es)

/-- Evaluating a conditional in two contexts. -/
lemma conditional (hcx : C.Contexts cx cx') (hs : C.InScope s) :
    ∀ c : Conditional, C.rel (c.eval cx s) (c.eval cx' s)
  | .ifThen _ condition yes => by
    rw [Conditional.eval, Conditional.eval]
    exact C.withOperand (expr hcx hs condition) fun v => C.choose (block hcx hs yes) (C.pure _)
  | .ifElse _ condition yes no => by
    rw [Conditional.eval, Conditional.eval]
    exact C.withOperand (expr hcx hs condition) fun v =>
      C.choose (block hcx hs yes) (block hcx hs no)
  | .elseIf _ condition yes next => by
    rw [Conditional.eval, Conditional.eval]
    exact C.withOperand (expr hcx hs condition) fun v =>
      C.choose (block hcx hs yes) (conditional hcx hs next)

/-- Evaluating a block in two contexts. -/
lemma block (hcx : C.Contexts cx cx') (hs : C.InScope s) :
    ∀ b : Block, C.rel (b.eval cx s) (b.eval cx' s)
  | .mk _ stmts => by
    rw [Block.eval, Block.eval]
    exact statements hcx hs stmts .null

/-- Evaluating statements in order in two contexts. -/
lemma statements (hcx : C.Contexts cx cx') (hs : C.InScope s) :
    ∀ (stmts : List Stmt) (last : Value),
      C.rel (Stmt.evalList cx s stmts last) (Stmt.evalList cx' s stmts last)
  | [], last => by
    rw [Stmt.evalList, Stmt.evalList]
    exact C.pure last
  | stmt :: stmts, _ => by
    rw [Stmt.evalList, Stmt.evalList]
    exact C.withOperand (statement hcx hs stmt) (statements hcx hs stmts)

/-- Evaluating a statement in two contexts. -/
lemma statement (hcx : C.Contexts cx cx') (hs : C.InScope s) :
    ∀ stmt : Stmt, C.rel (stmt.eval cx s) (stmt.eval cx' s)
  | .bind _ name value => by
    rw [Stmt.eval, Stmt.eval]
    exact C.withOperand (expr hcx hs value) (hs.bind _)
  | .assign _ name value => by
    rw [Stmt.eval, Stmt.eval]
    exact C.withOperand (expr hcx hs value) (hs.assign _)
  | .returnValue _ value => by
    rw [Stmt.eval, Stmt.eval]
    exact C.withOperand (expr hcx hs value) fun v => C.pure _
  | .returnNothing _ | .breakLoop _ | .continueLoop _ => by
    rw [Stmt.eval, Stmt.eval]
    exact C.pure _
  | .expr value => by
    cases h : (Stmt.expr value).declared? with
    | none =>
      rw [Stmt.eval_expr h, Stmt.eval_expr h]
      exact expr hcx hs value
    | some name =>
      obtain ⟨span, params, body, rfl⟩ := Stmt.eq_function_of_declared h
      rw [Stmt.eval, Stmt.eval]
      exact hs.declare name params body

end

/-- Evaluating a program in two contexts. -/
lemma program (hcx : C.Contexts cx cx') (hs : C.InScope s) (p : Program) :
    C.rel (p.eval cx s) (p.eval cx' s) :=
  C.settled (C.statements hcx hs p.stmts .null)

end Run.Congruence

/-! ### Calls -/

/-- A call with the wrong number of arguments fails, however many calls are left. -/
lemma Function.call_of_length_ne (iterations calls : Nat) {f : Function} {args : List Value}
    (h : args.length ≠ f.params.length) :
    f.call iterations calls args =
      throw (.arity f.displayName f.params.length args.length) := by
  funext m
  unfold Function.call
  rw [if_pos h]
  rfl

/-- A call that may not be nested fails. -/
lemma Function.call_zero (iterations : Nat) {f : Function} {args : List Value}
    (h : args.length = f.params.length) : f.call iterations 0 args = throw .recursionLimit := by
  funext m
  rw [Function.call, if_neg (not_not_intro h)]
  rfl

/-- A call that may be nested runs the body. -/
lemma Function.call_succ (iterations calls : Nat) {f : Function} {args : List Value}
    (h : args.length = f.params.length) :
    f.call iterations (calls + 1) args =
      f.perform ⟨iterations, Value.callBy (Function.call iterations calls)⟩ args := by
  funext m
  rw [Function.call, if_neg (not_not_intro h)]

/-- Runs the body of a function whose call is counted already. -/
def Function.inside (cx : Context) (f : Function) (args : List Value) : Run Value := fun m =>
  Run.settled (f.body.eval cx (f.enter args m).1) (f.enter args m).2

/-- A call is counted while the body of the function runs. -/
lemma Function.perform_eq (cx : Context) (f : Function) (args : List Value) :
    f.perform cx args = whileCalling (f.inside cx args) := rfl

/-- Calling a value, if functions and builtins can be called. -/
lemma Run.Congruence.callBy (C : Run.Congruence)
    {call call' : Function → List Value → Run Value}
    (hcall : ∀ f args, C.rel (call f args) (call' f args))
    (hbuiltin : ∀ (b : Builtin) args, C.rel (b.apply args) (b.apply args)) (callee : Value)
    (args : List Value) : C.rel (callee.callBy call args) (callee.callBy call' args) := by
  cases callee with
  | function f => exact hcall f args
  | builtin b => exact hbuiltin b args
  | _ => exact C.throw _

/-! ### Changes of the machine -/

namespace Run.Congruence

section Order

variable (R : Machine → Machine → Prop) (hrefl : ∀ m, R m m)
  (htrans : ∀ {m₁ m₂ m₃}, R m₁ m₂ → R m₂ m₃ → R m₁ m₃)

/-- The runs that change every machine in a given way, if this way composes. -/
def ofOrder : Run.Congruence where
  rel r _ := ∀ m, R m (.ofResult (r m))
  pure _ := hrefl
  throw _ := hrefl
  bind := by
    intro α β r r' k k' hr hk m
    have hm := hr m
    rw [Run.bind_eq]
    cases h : r m with
    | error e m' =>
      rw [h] at hm
      exact hm
    | ok a m' =>
      rw [h] at hm
      exact htrans hm (hk a m')

variable {R hrefl htrans}

/-- The steps of a scope, if bindings, assignments and new functions change the machine in this
way. -/
lemma inScope_ofOrder {s : Scope} (hset : ∀ (m : Machine) name v, R m (m.set s name v))
    (hassign : ∀ (m : Machine) name v, R m (m.assign s name v).2)
    (hcount : ∀ m : Machine, R m { m with functions := m.functions + 1 }) :
    (ofOrder R hrefl htrans).InScope s where
  resolve name m := by
    unfold Scope.resolve
    split
    · exact hrefl m
    · split <;> exact hrefl m
  bind name v m := hset m name v
  assign name v m := by
    have hm := hassign m name v
    unfold Scope.assign
    split <;> simp_all
  makeFunction _ _ _ m := hcount m
  declare name _ _ m := htrans (hcount m) (hset _ name.name _)

end Order

end Run.Congruence

/-- A builtin prints a line, records an event or leaves the machine alone. -/
lemma Builtin.changes_apply {R : Machine → Machine → Prop} (hrefl : ∀ m, R m m)
    (hprint : ∀ (m : Machine) line, R m (m.print line))
    (hrecord : ∀ (m : Machine) log e, R m (m.record log e)) (b : Builtin) (args : List Value)
    (m : Machine) : R m (.ofResult (b.apply args m)) := by
  cases b with
  | hakiki =>
    unfold Builtin.apply Builtin.assert
    dsimp only
    split
    · exact hrefl m
    · split
      · exact hrecord m _ _
      · split <;> exact hrefl m
  | andika => exact hprint m _
  | aina =>
    unfold Builtin.apply
    dsimp only
    split <;> exact hrefl m

end Lugha
