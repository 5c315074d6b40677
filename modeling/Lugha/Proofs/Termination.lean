import Lugha.Proofs.Growth

/-!
# Evaluation ends

`Program.eval` is defined by recursion on trees, on the number of calls that may still be nested and
on the number of checks that a loop has left.  The evaluator of this module knows of none of these.
It takes the bodies of functions from where they are called, asks at each call how many calls are
under way, counts the checks of a loop upward in a machine word, and stops when its fuel is spent.
Beside the machine it keeps gauges of the highest count of a loop and of the most calls under way.

`Settles` says that an evaluation with fuel ends as a run does as soon as the fuel is enough, on all
machines with a given number of calls under way.  Each step of an evaluation keeps this.  The proof
then follows the three recursions of `Program.eval`, and this is where the count of a loop must not
run over the end of the machine word.  That the gauges stay within the limits is shown by induction
on the fuel, since it has to hold of evaluations that are not finished too.
-/

namespace Lugha

/-! ### Evaluation with fuel -/

/-- The highest count that a loop has reached, and the most calls that were under way. -/
structure Gauge where
  count : Nat
  calls : Nat

/-- A machine with its gauges. -/
structure Metered where
  machine : Machine
  gauge : Gauge

/-- Why an evaluation has stopped: its fuel is spent, or there is an error. -/
inductive Stop where
  | spent
  | error (e : EvalError)

/-- A run that may stop for want of fuel. -/
abbrev Fueled (α : Type) := EStateM Stop Metered α

namespace Fueled

variable {α : Type}

/-- The fuel is spent. -/
def spent : Fueled α := throw .spent

/-- How a finished run ends. -/
def ended (g : Gauge) : EStateM.Result EvalError Machine α → EStateM.Result Stop Metered α
  | .ok a m => .ok a ⟨m, g⟩
  | .error e m => .error (.error e) ⟨m, g⟩

/-- A run that needs no fuel. -/
def ofRun (r : Run α) : Fueled α := fun x => ended x.gauge (r x.machine)

/-- Goes on with the value of an operand, or hands a signal outward. -/
def withOperand (isLoop : Bool) (r : Fueled Value) (k : Value → Fueled Value) : Fueled Value := do
  let v ← r
  if (v.asOperand isLoop).isSignal then return v.asOperand isLoop else k (v.asOperand isLoop)

/-- Puts the value of an argument before those of further arguments. -/
def withArgument (isLoop : Bool) (r : Fueled Value) (rest : Fueled (Except Value (List Value))) :
    Fueled (Except Value (List Value)) := do
  let v ← r
  if (v.asOperand isLoop).isSignal then return .error (v.asOperand isLoop)
  else
    match ← rest with
    | .ok vs => return .ok (v.asOperand isLoop :: vs)
    | .error signal => return .error signal

/-- Goes on with the right operand of an operator, unless the left one settles the result. -/
def withRight (op : BinaryOp) (a : Value) (isLoop : Bool) (right : Fueled Value) : Fueled Value :=
  match op.settledBy? a with
  | some b => pure (.boolean b)
  | none => withOperand isLoop right fun b => ofRun (Run.lift (op.apply a b))

/-- One of two runs, by the truth of a value. -/
def choose (v : Value) (yes no : Fueled Value) : Fueled Value :=
  if v.truthy then yes else no

/-- Calls a value with arguments, or hands outward the signal that ended them. -/
def applyTo (call : Function → List Value → Fueled Value) (callee : Value) :
    Except Value (List Value) → Fueled Value
  | .ok args =>
    match callee with
    | .function f => call f args
    | .builtin b => ofRun (b.apply args)
    | v => ofRun (throw (.notCallable v.typeName))
  | .error signal => pure signal

/-- How a loop goes on after its body. -/
def nextRound (last : Value) (again : Value → Fueled Value) : Value → Fueled Value
  | .jump .endelea => again last
  | v => if v.isSignal then pure v else again v

/-- Settles the value of a run. -/
def settled (r : Fueled Value) : Fueled Value := do
  let v ← r
  ofRun v.settle

/-- Counts a check of a loop. More checks than are allowed are an error. -/
def check (limit : Nat) (counter : UInt64) : Fueled Unit := fun x =>
  let x := { x with gauge.count := max x.gauge.count counter.toNat }
  if limit < counter.toNat then .error (.error .infiniteLoop) x else .ok () x

/-- Counts a call as under way while its body runs. -/
def whileCalling (r : Fueled Value) : Fueled Value := fun x =>
  let m : Machine := { x.machine with depth := x.machine.depth + 1 }
  match r ⟨m, { x.gauge with calls := max x.gauge.calls m.depth }⟩ with
  | .ok v x => .ok v { x with machine.depth := x.machine.depth - 1 }
  | .error e x => .error e { x with machine.depth := x.machine.depth - 1 }

/-- Runs the body of a function in a scope of its own. -/
def perform (f : Function) (args : List Value) (body : Scope → Fueled Value) : Fueled Value :=
  whileCalling fun x =>
    let (s, m) := f.enter args x.machine
    settled (body s) { x with machine := m }

/-- Calls a function. The arguments are counted before the calls under way are. -/
def call (limit : Nat) (f : Function) (args : List Value) (body : Scope → Fueled Value) :
    Fueled Value := fun x =>
  if args.length ≠ f.params.length then
    .error (.error (.arity f.displayName f.params.length args.length)) x
  else if limit ≤ x.machine.depth then .error (.error .recursionLimit) x
  else perform f args body x

end Fueled

mutual

/-- Evaluates an expression with some fuel. -/
def Expr.evalFueled (l : Limits) : Nat → Scope → Expr → Fueled Value
  | 0, _, _ => Fueled.spent
  | _ + 1, _, .number _ x => pure (.number x)
  | _ + 1, _, .text _ t => pure (.text t)
  | _ + 1, _, .boolean _ b => pure (.boolean b)
  | _ + 1, _, .null _ => pure .null
  | _ + 1, s, .name _ name => Fueled.ofRun (s.resolve name)
  | n + 1, s, .call _ callee args =>
    Fueled.withOperand callee.isLoop (callee.evalFueled l n s) fun f =>
      Expr.evalArgsFueled l n s args >>= Fueled.applyTo (Function.callFueled l n) f
  | n + 1, s, .binary _ op left right =>
    Fueled.withOperand left.isLoop (left.evalFueled l n s) fun a =>
      Fueled.withRight op a right.isLoop (right.evalFueled l n s)
  | n + 1, s, .unary _ op operand =>
    Fueled.withOperand operand.isLoop (operand.evalFueled l n s) fun v =>
      Fueled.ofRun (Run.lift (op.apply v))
  | n + 1, s, .conditional branches => branches.evalFueled l n s
  | n + 1, s, .loop _ condition body => loopFueled l n s condition body 0 .null
  | _ + 1, s, .function _ name params body => Fueled.ofRun (s.makeFunction name params body)
  | n + 1, s, .paren _ inner => inner.evalFueled l n s

/-- Evaluates arguments with some fuel. -/
def Expr.evalArgsFueled (l : Limits) :
    Nat → Scope → List Expr → Fueled (Except Value (List Value))
  | 0, _, _ => Fueled.spent
  | _ + 1, _, [] => pure (.ok [])
  | n + 1, s, e :: es =>
    Fueled.withArgument e.isLoop (e.evalFueled l n s) (Expr.evalArgsFueled l n s es)

/-- Evaluates a conditional with some fuel. -/
def Conditional.evalFueled (l : Limits) : Nat → Scope → Conditional → Fueled Value
  | 0, _, _ => Fueled.spent
  | n + 1, s, .ifThen _ condition yes =>
    Fueled.withOperand condition.isLoop (condition.evalFueled l n s) fun v =>
      Fueled.choose v (yes.evalFueled l n s) (pure .null)
  | n + 1, s, .ifElse _ condition yes no =>
    Fueled.withOperand condition.isLoop (condition.evalFueled l n s) fun v =>
      Fueled.choose v (yes.evalFueled l n s) (no.evalFueled l n s)
  | n + 1, s, .elseIf _ condition yes next =>
    Fueled.withOperand condition.isLoop (condition.evalFueled l n s) fun v =>
      Fueled.choose v (yes.evalFueled l n s) (next.evalFueled l n s)

/-- Repeats the body of a loop with some fuel, after a number of checks. -/
def loopFueled (l : Limits) : Nat → Scope → Expr → Block → UInt64 → Value → Fueled Value
  | 0, _, _, _, _, _ => Fueled.spent
  | n + 1, s, condition, body, counter, last => do
    Fueled.check l.iterations (counter + 1)
    Fueled.withOperand condition.isLoop (condition.evalFueled l n s) fun v =>
      Fueled.choose v
        (body.evalFueled l n s >>=
          Fueled.nextRound last (loopFueled l n s condition body (counter + 1)))
        (pure last)

/-- Evaluates a block with some fuel. -/
def Block.evalFueled (l : Limits) : Nat → Scope → Block → Fueled Value
  | 0, _, _ => Fueled.spent
  | n + 1, s, .mk _ stmts => Stmt.evalListFueled l n s stmts .null

/-- Evaluates statements in order with some fuel. -/
def Stmt.evalListFueled (l : Limits) : Nat → Scope → List Stmt → Value → Fueled Value
  | 0, _, _, _ => Fueled.spent
  | _ + 1, _, [], last => pure last
  | n + 1, s, stmt :: stmts, _ =>
    Fueled.withOperand stmt.isLoop (stmt.evalFueled l n s) fun v =>
      Stmt.evalListFueled l n s stmts v

/-- Evaluates a statement with some fuel. -/
def Stmt.evalFueled (l : Limits) : Nat → Scope → Stmt → Fueled Value
  | 0, _, _ => Fueled.spent
  | n + 1, s, .bind _ name value =>
    Fueled.withOperand value.isLoop (value.evalFueled l n s) fun v =>
      Fueled.ofRun (s.bind name.name v)
  | n + 1, s, .assign _ name value =>
    Fueled.withOperand value.isLoop (value.evalFueled l n s) fun v =>
      Fueled.ofRun (s.assign name.name v)
  | n + 1, s, .returnValue _ value =>
    Fueled.withOperand value.isLoop (value.evalFueled l n s) fun v => pure (.returned v)
  | _ + 1, _, .returnNothing _ => pure (.returned .null)
  | _ + 1, _, .breakLoop _ => pure (.jump .vunja)
  | _ + 1, _, .continueLoop _ => pure (.jump .endelea)
  | _ + 1, s, .expr (.function _ (some name) params body) =>
    Fueled.ofRun (s.declare name params body)
  | n + 1, s, .expr value => value.evalFueled l n s

/-- Calls a function with some fuel. -/
def Function.callFueled (l : Limits) : Nat → Function → List Value → Fueled Value
  | 0, _, _ => Fueled.spent
  | n + 1, f, args => Fueled.call l.callDepth f args fun s => f.body.evalFueled l n s

end

/-- Evaluates a program with some fuel. -/
def Program.evalFueled (l : Limits) (n : Nat) (s : Scope) (p : Program) : Fueled Value :=
  Fueled.settled (Stmt.evalListFueled l n s p.stmts .null)

/-! ### Enough fuel -/

/-- On every machine with a given number of calls under way, an evaluation with enough fuel ends as
a run does, and with as many calls under way. -/
def Settles {α : Type} (depth : Nat) (x : Nat → Fueled α) (r : Run α) : Prop :=
  ∀ (m : Machine) (g : Gauge), m.depth = depth →
    (Machine.ofResult (r m)).depth = depth ∧
      ∃ N g', ∀ n ≥ N, x n ⟨m, g⟩ = Fueled.ended g' (r m)

/-- How a run goes on with a second one. -/
lemma Fueled.bind_eq {α β : Type} (r : Fueled α) (k : α → Fueled β) (x : Metered) :
    (r >>= k) x =
      match r x with
      | .ok a x' => k a x'
      | .error e x' => .error e x' := by
  change EStateM.bind r k x = _
  unfold EStateM.bind
  cases r x <;> rfl

/-- The count of a loop does not run over while checks are left or have just run out. -/
lemma toNat_add_one_of_checks {counter : UInt64} {checks iterations : Nat}
    (hl : iterations ≤ UInt64.size - 2) (h : counter.toNat + checks = iterations) :
    (counter + 1).toNat = counter.toNat + 1 := by
  have hlt : counter.toNat + 1 < UInt64.size := by
    simp only [UInt64.size] at hl ⊢
    omega
  exact (UInt64.toNat_add counter 1).trans (Nat.mod_eq_of_lt hlt)

namespace Settles

variable {α β : Type} {depth : Nat}

/-- A run that needs no fuel. -/
lemma ofRun {r : Run α} (hr : r.Growing) : Settles depth (fun _ => Fueled.ofRun r) r :=
  fun m g hm => ⟨(hr m).depth.trans hm, 0, g, fun _ _ => rfl⟩

/-- A finished run. -/
lemma pure (a : α) : Settles depth (fun _ => Pure.pure a) (Pure.pure a) :=
  ofRun (.pure a)

/-- One unit of fuel may be needed first. -/
lemma succ {x : Nat → Fueled α} {r : Run α} (h : Settles depth (fun n => x (n + 1)) r) :
    Settles depth x r := by
  intro m g hm
  obtain ⟨hdepth, N, g', hend⟩ := h m g hm
  refine ⟨hdepth, N + 1, g', fun n hn => ?_⟩
  obtain ⟨k, rfl⟩ := Nat.exists_eq_add_of_le' hn
  exact hend (k + N) (Nat.le_add_left N k)

/-- One run after another: enough fuel for both is enough. -/
lemma bind {x : Nat → Fueled α} {r : Run α} {k : Nat → α → Fueled β} {k' : α → Run β}
    (hr : Settles depth x r) (hk : ∀ a, Settles depth (fun n => k n a) (k' a)) :
    Settles depth (fun n => x n >>= k n) (r >>= k') := by
  intro m g hm
  obtain ⟨hdepth, N, g₁, hfirst⟩ := hr m g hm
  rw [Run.bind_eq]
  cases hresult : r m with
  | error e m₁ =>
    rw [hresult] at hdepth hfirst
    refine ⟨hdepth, N, g₁, fun n hn => (Fueled.bind_eq (x n) (k n) _).trans ?_⟩
    rw [hfirst n hn]
    rfl
  | ok a m₁ =>
    rw [hresult] at hdepth hfirst
    obtain ⟨hdepth', N', g₂, hsecond⟩ := hk a m₁ g₁ hdepth
    refine ⟨hdepth', max N N', g₂, fun n hn => (Fueled.bind_eq (x n) (k n) _).trans ?_⟩
    rw [hfirst n (Nat.le_trans (Nat.le_max_left N N') hn)]
    exact hsecond n (Nat.le_trans (Nat.le_max_right N N') hn)

/-- Going on with an operand. -/
lemma withOperand {isLoop : Bool} {x : Nat → Fueled Value} {r : Run Value}
    {k : Nat → Value → Fueled Value} {k' : Value → Run Value} (hr : Settles depth x r)
    (hk : ∀ v, Settles depth (fun n => k n v) (k' v)) :
    Settles depth (fun n => Fueled.withOperand isLoop (x n) (k n))
      (Lugha.withOperand isLoop r k') := by
  refine bind hr fun v => ?_
  split
  · exact pure _
  · exact hk _

/-- Putting an argument before further ones. -/
lemma withArgument {isLoop : Bool} {x : Nat → Fueled Value} {r : Run Value}
    {y : Nat → Fueled (Except Value (List Value))} {rest : Run (Except Value (List Value))}
    (hr : Settles depth x r) (hrest : Settles depth y rest) :
    Settles depth (fun n => Fueled.withArgument isLoop (x n) (y n))
      (Lugha.withArgument isLoop r rest) := by
  refine bind hr fun v => ?_
  split
  · exact pure _
  · refine bind hrest fun vs => ?_
    cases vs with
    | ok vs => exact pure _
    | error signal => exact pure _

/-- Going on with the right operand of an operator. -/
lemma withRight {op : BinaryOp} {a : Value} {isLoop : Bool} {x : Nat → Fueled Value}
    {right : Run Value} (hright : Settles depth x right) :
    Settles depth (fun n => Fueled.withRight op a isLoop (x n)) (op.withRight a isLoop right) := by
  unfold Fueled.withRight BinaryOp.withRight
  cases op.settledBy? a with
  | some b => exact pure _
  | none => exact withOperand hright fun b => ofRun (.lift _)

/-- One of two runs. -/
lemma choose {v : Value} {x y : Nat → Fueled Value} {yes no : Run Value}
    (hyes : Settles depth x yes) (hno : Settles depth y no) :
    Settles depth (fun n => Fueled.choose v (x n) (y n)) (v.choose yes no) := by
  unfold Fueled.choose Value.choose
  split
  · exact hyes
  · exact hno

/-- Going on after the body of a loop. -/
lemma nextRound {last : Value} {x : Nat → Value → Fueled Value} {again : Value → Run Value}
    (hagain : ∀ v, Settles depth (fun n => x n v) (again v)) (v : Value) :
    Settles depth (fun n => Fueled.nextRound last (x n) v) (Lugha.nextRound last again v) := by
  cases v with
  | jump j =>
    cases j with
    | endelea => exact hagain last
    | vunja => exact pure _
  | returned v => exact pure _
  | _ => exact hagain _

/-- Settling the value of a run. -/
lemma settled {x : Nat → Fueled Value} {r : Run Value} (hr : Settles depth x r) :
    Settles depth (fun n => Fueled.settled (x n)) r.settled := by
  refine bind hr fun v => ofRun ?_
  cases v <;> exact .of_idle fun _ => rfl

/-- A call that is counted while it runs. -/
lemma whileCalling {x : Nat → Fueled Value} {r : Run Value} (hr : Settles (depth + 1) x r) :
    Settles depth (fun n => Fueled.whileCalling (x n)) (Lugha.whileCalling r) := by
  intro m g hm
  let m₁ : Machine := { m with depth := m.depth + 1 }
  obtain ⟨hdepth, N, g', hend⟩ :=
    hr m₁ { g with calls := max g.calls m₁.depth } (congrArg (· + 1) hm)
  have hcall (n : Nat) : Fueled.whileCalling (x n) ⟨m, g⟩ =
      match x n ⟨m₁, { g with calls := max g.calls m₁.depth }⟩ with
      | .ok v y => .ok v { y with machine.depth := y.machine.depth - 1 }
      | .error e y => .error e { y with machine.depth := y.machine.depth - 1 } := rfl
  unfold Lugha.whileCalling
  cases hresult : r m₁ with
  | ok v m₂ | error e m₂ =>
    rw [hresult] at hdepth hend
    refine ⟨congrArg (· - 1) hdepth, N, g', fun n hn => (hcall n).trans ?_⟩
    rw [hend n hn]
    rfl

/-- A check that is allowed, and what is done after it. -/
lemma check {limit : Nat} {counter : UInt64} (h : counter.toNat ≤ limit) {x : Nat → Fueled Value}
    {r : Run Value} (hx : Settles depth x r) :
    Settles depth (fun n => Fueled.check limit counter >>= fun _ => x n) r := by
  intro m g hm
  have hgo : Fueled.check limit counter ⟨m, g⟩ =
      .ok () ⟨m, { g with count := max g.count counter.toNat }⟩ := if_neg (Nat.not_lt.2 h)
  obtain ⟨hdepth, N, g', hend⟩ := hx m { g with count := max g.count counter.toNat } hm
  refine ⟨hdepth, N, g', fun n hn => (Fueled.bind_eq _ (fun _ => x n) _).trans ?_⟩
  rw [hgo]
  exact hend n hn

/-- A check too many, after which nothing is done. -/
lemma check_exceeded {limit : Nat} {counter : UInt64} (h : limit < counter.toNat)
    (x : Nat → Fueled Value) :
    Settles depth (fun n => Fueled.check limit counter >>= fun _ => x n) (throw .infiniteLoop) := by
  intro m g hm
  have hstop : Fueled.check limit counter ⟨m, g⟩ =
      .error (.error .infiniteLoop) ⟨m, { g with count := max g.count counter.toNat }⟩ := if_pos h
  refine ⟨hm, 0, { g with count := max g.count counter.toNat }, fun n _ => ?_⟩
  refine (Fueled.bind_eq _ (fun _ => x n) _).trans ?_
  rw [hstop]
  rfl

/-- Repeating a body: the count of a loop and the checks that it has left make up its limit. -/
lemma loop {l : Limits} (hl : l.iterations ≤ UInt64.size - 2) {s : Scope} {condition : Expr}
    {body : Block} {c b : Run Value}
    (hc : Settles depth (fun n => condition.evalFueled l n s) c)
    (hb : Settles depth (fun n => body.evalFueled l n s) b) {checks : Nat} {counter : UInt64}
    (hchecks : counter.toNat + checks = l.iterations) (last : Value) :
    Settles depth (fun n => loopFueled l n s condition body counter last)
      (repeatWhile c condition.isLoop b checks last) := by
  induction checks generalizing counter last with
  | zero =>
    have hcount := toNat_add_one_of_checks hl hchecks
    have hexceeded : l.iterations < (counter + 1).toNat := by omega
    refine succ ?_
    simp only [loopFueled]
    exact check_exceeded hexceeded _
  | succ checks ih =>
    -- one more check is counted and one less is left
    have hcount := toNat_add_one_of_checks hl hchecks
    have hallowed : (counter + 1).toNat ≤ l.iterations := by omega
    have hnext : (counter + 1).toNat + checks = l.iterations := by omega
    rw [repeatWhile_succ]
    refine succ ?_
    simp only [loopFueled]
    refine check hallowed (withOperand hc fun v => choose ?_ (pure last))
    exact bind hb (nextRound (ih hnext))

/-- Running the body of a function in a scope of its own. -/
lemma perform {f : Function} {args : List Value} {x : Nat → Scope → Fueled Value} {cx : Context}
    (hbody : ∀ s, Settles (depth + 1) (fun n => x n s) (f.body.eval cx s)) :
    Settles depth (fun n => Fueled.perform f args (x n)) (f.perform cx args) :=
  whileCalling fun m g hm =>
    settled (hbody (f.enter args m).1) (f.enter args m).2 g ((f.grows_enter args m).depth.trans hm)

/-- What an evaluation does on machines with other numbers of calls under way does not matter. -/
lemma congr {x y : Nat → Fueled α} {r : Run α} (h : Settles depth y r)
    (hx : ∀ n m g, m.depth = depth → x n ⟨m, g⟩ = y n ⟨m, g⟩) : Settles depth x r := by
  intro m g hm
  obtain ⟨hdepth, N, g', hend⟩ := h m g hm
  exact ⟨hdepth, N, g', fun n hn => (hx n m g hm).trans (hend n hn)⟩

end Settles

/-! ### The three recursions -/

/-- A context in which calls settle, and whose loops have a limit that can be counted. -/
structure Context.Settled (l : Limits) (depth : Nat) (cx : Context) : Prop where
  countable : l.iterations ≤ UInt64.size - 2
  iterations : cx.iterations = l.iterations
  apply : ∀ callee args, Settles depth
    (fun n => Fueled.applyTo (Function.callFueled l n) callee (.ok args)) (cx.apply callee args)

/-- Calling a value with arguments, if they have values. -/
lemma Context.Settled.applyTo {l : Limits} {depth : Nat} {cx : Context} (hcx : cx.Settled l depth)
    (callee : Value) (args : Except Value (List Value)) :
    Settles depth (fun n => Fueled.applyTo (Function.callFueled l n) callee args)
      (cx.applyTo callee args) := by
  cases args with
  | ok args => exact hcx.apply callee args
  | error signal => exact .pure signal

/-- A statement that declares no function is evaluated as its expression. -/
lemma Stmt.evalFueled_expr {value : Expr} (h : (Stmt.expr value).declared? = none) (l : Limits)
    (n : Nat) (s : Scope) :
    (Stmt.expr value).evalFueled l (n + 1) s = value.evalFueled l n s := by
  cases value with
  | function span name params body =>
    cases name with
    | none => rw [Stmt.evalFueled]; simp
    | some name => simp [declared?] at h
  | _ => rw [Stmt.evalFueled]; simp

mutual

/-- Evaluating an expression. -/
lemma Expr.settles_eval {l : Limits} {depth : Nat} {cx : Context}
    (hcx : cx.Settled l depth) (s : Scope) :
    ∀ e : Expr, Settles depth (fun n => e.evalFueled l n s) (e.eval cx s)
  | .number .. | .text .. | .boolean .. | .null .. => by
    refine .succ ?_
    simp only [Expr.evalFueled, Expr.eval]
    exact .pure _
  | .name _ name => by
    refine .succ ?_
    simp only [Expr.evalFueled, Expr.eval]
    exact .ofRun (s.growing.resolve name)
  | .call _ callee args => by
    refine .succ ?_
    simp only [Expr.evalFueled, Expr.eval]
    exact .withOperand (callee.settles_eval hcx s) fun f =>
      .bind (Expr.settles_evalArgs hcx s args) (hcx.applyTo f)
  | .binary _ op left right => by
    refine .succ ?_
    simp only [Expr.evalFueled, Expr.eval]
    exact .withOperand (left.settles_eval hcx s) fun a => .withRight (right.settles_eval hcx s)
  | .unary _ op operand => by
    refine .succ ?_
    simp only [Expr.evalFueled, Expr.eval]
    exact .withOperand (operand.settles_eval hcx s) fun v => .ofRun (.lift _)
  | .conditional branches => by
    refine .succ ?_
    simp only [Expr.evalFueled, Expr.eval]
    exact branches.settles_eval hcx s
  | .loop _ condition body => by
    refine .succ ?_
    simp only [Expr.evalFueled, Expr.eval]
    refine .loop hcx.countable (condition.settles_eval hcx s) (body.settles_eval hcx s) ?_ .null
    rw [hcx.iterations]
    exact Nat.zero_add _
  | .function _ name params body => by
    refine .succ ?_
    simp only [Expr.evalFueled, Expr.eval]
    exact .ofRun (s.growing.makeFunction name params body)
  | .paren _ inner => by
    refine .succ ?_
    simp only [Expr.evalFueled, Expr.eval]
    exact inner.settles_eval hcx s

/-- Evaluating arguments. -/
lemma Expr.settles_evalArgs {l : Limits} {depth : Nat} {cx : Context}
    (hcx : cx.Settled l depth) (s : Scope) :
    ∀ es : List Expr, Settles depth (fun n => Expr.evalArgsFueled l n s es) (Expr.evalArgs cx s es)
  | [] => by
    refine .succ ?_
    simp only [Expr.evalArgsFueled, Expr.evalArgs]
    exact .pure _
  | e :: es => by
    refine .succ ?_
    simp only [Expr.evalArgsFueled, Expr.evalArgs]
    exact .withArgument (e.settles_eval hcx s) (Expr.settles_evalArgs hcx s es)

/-- Evaluating a conditional. -/
lemma Conditional.settles_eval {l : Limits} {depth : Nat} {cx : Context}
    (hcx : cx.Settled l depth) (s : Scope) :
    ∀ c : Conditional, Settles depth (fun n => c.evalFueled l n s) (c.eval cx s)
  | .ifThen _ condition yes => by
    refine .succ ?_
    simp only [Conditional.evalFueled, Conditional.eval]
    exact .withOperand (condition.settles_eval hcx s) fun v =>
      .choose (yes.settles_eval hcx s) (.pure _)
  | .ifElse _ condition yes no => by
    refine .succ ?_
    simp only [Conditional.evalFueled, Conditional.eval]
    exact .withOperand (condition.settles_eval hcx s) fun v =>
      .choose (yes.settles_eval hcx s) (no.settles_eval hcx s)
  | .elseIf _ condition yes next => by
    refine .succ ?_
    simp only [Conditional.evalFueled, Conditional.eval]
    exact .withOperand (condition.settles_eval hcx s) fun v =>
      .choose (yes.settles_eval hcx s) (next.settles_eval hcx s)

/-- Evaluating a block. -/
lemma Block.settles_eval {l : Limits} {depth : Nat} {cx : Context}
    (hcx : cx.Settled l depth) (s : Scope) :
    ∀ b : Block, Settles depth (fun n => b.evalFueled l n s) (b.eval cx s)
  | .mk _ stmts => by
    refine .succ ?_
    simp only [Block.evalFueled, Block.eval]
    exact Stmt.settles_evalList hcx s stmts .null

/-- Evaluating statements. -/
lemma Stmt.settles_evalList {l : Limits} {depth : Nat} {cx : Context}
    (hcx : cx.Settled l depth) (s : Scope) : ∀ (stmts : List Stmt) (last : Value),
    Settles depth (fun n => Stmt.evalListFueled l n s stmts last) (Stmt.evalList cx s stmts last)
  | [], last => by
    refine .succ ?_
    simp only [Stmt.evalListFueled, Stmt.evalList]
    exact .pure last
  | stmt :: stmts, last => by
    refine .succ ?_
    simp only [Stmt.evalListFueled, Stmt.evalList]
    exact .withOperand (stmt.settles_eval hcx s) (Stmt.settles_evalList hcx s stmts)

/-- Evaluating a statement. -/
lemma Stmt.settles_eval {l : Limits} {depth : Nat} {cx : Context}
    (hcx : cx.Settled l depth) (s : Scope) :
    ∀ stmt : Stmt, Settles depth (fun n => stmt.evalFueled l n s) (stmt.eval cx s)
  | .bind _ name value => by
    refine .succ ?_
    simp only [Stmt.evalFueled, Stmt.eval]
    exact .withOperand (value.settles_eval hcx s) fun v => .ofRun (s.growing.bind _ v)
  | .assign _ name value => by
    refine .succ ?_
    simp only [Stmt.evalFueled, Stmt.eval]
    exact .withOperand (value.settles_eval hcx s) fun v => .ofRun (s.growing.assign _ v)
  | .returnValue _ value => by
    refine .succ ?_
    simp only [Stmt.evalFueled, Stmt.eval]
    exact .withOperand (value.settles_eval hcx s) fun v => .pure _
  | .returnNothing _ | .breakLoop _ | .continueLoop _ => by
    refine .succ ?_
    simp only [Stmt.evalFueled, Stmt.eval]
    exact .pure _
  | .expr value => by
    refine .succ ?_
    cases h : (Stmt.expr value).declared? with
    | none =>
      simp only [Stmt.evalFueled_expr h, Stmt.eval_expr h]
      exact value.settles_eval hcx s
    | some name =>
      obtain ⟨span, params, body, rfl⟩ := Stmt.eq_function_of_declared h
      simp only [Stmt.evalFueled, Stmt.eval]
      exact .ofRun (s.growing.declare name params body)

end

/-- Calling a value settles if calling functions does. -/
lemma Value.settles_callBy {l : Limits} {depth : Nat} {call : Function → List Value → Run Value}
    (hcall : ∀ f args, Settles depth (fun n => f.callFueled l n args) (call f args))
    (callee : Value) (args : List Value) :
    Settles depth (fun n => Fueled.applyTo (Function.callFueled l n) callee (.ok args))
      (callee.callBy call args) := by
  cases callee with
  | function f => exact hcall f args
  | builtin b => exact .ofRun (b.growing_apply args)
  | _ => exact .ofRun (.throw _)

/-- Calling a function with the wrong number of arguments settles. -/
lemma Function.settles_call_of_length_ne (l : Limits) (calls depth : Nat) {f : Function}
    {args : List Value} (h : args.length ≠ f.params.length) :
    Settles depth (fun n => f.callFueled l n args) (f.call l.iterations calls args) := by
  refine .succ ?_
  simp only [Function.callFueled]
  rw [Function.call_of_length_ne _ _ h]
  refine Settles.congr (.ofRun (.throw _)) fun n m g _ => ?_
  rw [Fueled.call, if_pos h]
  rfl

/-- Calling a function settles. The calls that may still be nested are those between the calls
under way and the limit. -/
lemma Function.settles_call {l : Limits} (hl : l.iterations ≤ UInt64.size - 2) {calls depth : Nat}
    (hcalls : l.callDepth - depth = calls) (f : Function) (args : List Value) :
    Settles depth (fun n => f.callFueled l n args) (f.call l.iterations calls args) := by
  induction calls generalizing depth f args with
  | zero =>
    by_cases hlength : args.length = f.params.length
    · refine .succ ?_
      simp only [Function.callFueled]
      rw [Function.call_zero _ hlength]
      refine Settles.congr (.ofRun (.throw .recursionLimit)) fun n m g hm => ?_
      have hlimit : l.callDepth ≤ m.depth := by omega
      rw [Fueled.call, if_neg (not_not_intro hlength), if_pos hlimit]
      rfl
    · exact Function.settles_call_of_length_ne l 0 depth hlength
  | succ calls ih =>
    by_cases hlength : args.length = f.params.length
    · -- in the body one more call is under way, and one less may be nested
      have hcx : Context.Settled l (depth + 1)
          ⟨l.iterations, Value.callBy (Function.call l.iterations calls)⟩ :=
        ⟨hl, rfl, Value.settles_callBy (ih (by omega))⟩
      refine .succ ?_
      simp only [Function.callFueled]
      rw [Function.call_succ _ _ hlength]
      refine Settles.congr (.perform (f.body.settles_eval hcx)) fun n m g hm => ?_
      have hlimit : ¬ l.callDepth ≤ m.depth := by omega
      rw [Fueled.call, if_neg (not_not_intro hlength), if_neg hlimit]
    · exact Function.settles_call_of_length_ne l (calls + 1) depth hlength

/-- Programs are evaluated in contexts in which calls settle. -/
lemma Limits.settled_context {l : Limits} (hl : l.iterations ≤ UInt64.size - 2) (depth : Nat) :
    (l.context depth).Settled l depth :=
  ⟨hl, rfl, Value.settles_callBy (Function.settles_call hl rfl)⟩

/-! ### What the gauges can show -/

/-- A gauge that shows no more than another one. -/
structure Gauge.Within (bound g : Gauge) : Prop where
  count : g.count ≤ bound.count
  calls : g.calls ≤ bound.calls

/-- The gauge with which a result ends. -/
def Gauge.ofResult {α : Type} : EStateM.Result Stop Metered α → Gauge
  | .ok _ x | .error _ x => x.gauge

/-- A run with which a gauge stays within its bounds, whether it is finished or not. -/
def Fueled.Bounded {α : Type} (bound : Gauge) (r : Fueled α) : Prop :=
  ∀ x : Metered, bound.Within x.gauge → bound.Within (.ofResult (r x))

namespace Fueled.Bounded

variable {α β : Type} {bound : Gauge}

/-- A run that needs no fuel shows on no gauge. -/
lemma ofRun (r : Run α) : (Fueled.ofRun r).Bounded bound := by
  intro x hx
  unfold Fueled.ofRun
  cases r x.machine <;> exact hx

/-- A finished run. -/
lemma pure (a : α) : Fueled.Bounded bound (Pure.pure a) := fun _ hx => hx

/-- A run without fuel. -/
lemma spent : (Fueled.spent : Fueled α).Bounded bound := fun _ hx => hx

/-- One run after another. -/
lemma bind {r : Fueled α} {k : α → Fueled β} (hr : r.Bounded bound)
    (hk : ∀ a, (k a).Bounded bound) : Fueled.Bounded bound (r >>= k) := by
  intro x hx
  have hfirst := hr x hx
  rw [Fueled.bind_eq]
  cases h : r x with
  | error e y =>
    rw [h] at hfirst
    exact hfirst
  | ok a y =>
    rw [h] at hfirst
    exact hk a y hfirst

/-- Going on with an operand. -/
lemma withOperand {isLoop : Bool} {r : Fueled Value} {k : Value → Fueled Value}
    (hr : r.Bounded bound) (hk : ∀ v, (k v).Bounded bound) :
    (Fueled.withOperand isLoop r k).Bounded bound := by
  refine bind hr fun v => ?_
  split
  · exact pure _
  · exact hk _

/-- Putting an argument before further ones. -/
lemma withArgument {isLoop : Bool} {r : Fueled Value} {rest : Fueled (Except Value (List Value))}
    (hr : r.Bounded bound) (hrest : rest.Bounded bound) :
    (Fueled.withArgument isLoop r rest).Bounded bound := by
  refine bind hr fun v => ?_
  split
  · exact pure _
  · refine bind hrest fun vs => ?_
    split <;> exact pure _

/-- Going on with the right operand of an operator. -/
lemma withRight {op : BinaryOp} {a : Value} {isLoop : Bool} {right : Fueled Value}
    (hright : right.Bounded bound) : (Fueled.withRight op a isLoop right).Bounded bound := by
  unfold Fueled.withRight
  split
  · exact pure _
  · exact withOperand hright fun b => ofRun _

/-- One of two runs. -/
lemma choose {v : Value} {yes no : Fueled Value} (hyes : yes.Bounded bound)
    (hno : no.Bounded bound) : (Fueled.choose v yes no).Bounded bound := by
  unfold Fueled.choose
  split
  · exact hyes
  · exact hno

/-- Calling a value with arguments, if they have values. -/
lemma applyTo {call : Function → List Value → Fueled Value}
    (hcall : ∀ f args, (call f args).Bounded bound) (callee : Value)
    (args : Except Value (List Value)) : (Fueled.applyTo call callee args).Bounded bound := by
  unfold Fueled.applyTo
  split
  · split
    · exact hcall _ _
    · exact ofRun _
    · exact ofRun _
  · exact pure _

/-- Going on after the body of a loop. -/
lemma nextRound {last : Value} {again : Value → Fueled Value}
    (hagain : ∀ v, (again v).Bounded bound) (v : Value) :
    (Fueled.nextRound last again v).Bounded bound := by
  unfold Fueled.nextRound
  split
  · exact hagain last
  · split
    · exact pure v
    · exact hagain v

/-- Settling the value of a run. -/
lemma settled {r : Fueled Value} (hr : r.Bounded bound) : r.settled.Bounded bound :=
  bind hr fun _ => ofRun _

/-- Counting a check, and what is done if it is allowed. -/
lemma check {limit : Nat} {counter : UInt64} {k : Unit → Fueled α}
    (hcounter : counter.toNat ≤ bound.count)
    (hk : counter.toNat ≤ limit → (k ()).Bounded bound) :
    Fueled.Bounded bound (Fueled.check limit counter >>= k) := by
  intro x hx
  have hcounted : bound.Within { x.gauge with count := max x.gauge.count counter.toNat } :=
    ⟨Nat.max_le.2 ⟨hx.count, hcounter⟩, hx.calls⟩
  rw [Fueled.bind_eq, Fueled.check]
  by_cases hlimit : limit < counter.toNat
  · rw [if_pos hlimit]
    exact hcounted
  · rw [if_neg hlimit]
    exact hk (Nat.not_lt.1 hlimit) _ hcounted

/-- A call that is counted while it runs. -/
lemma whileCalling {r : Fueled Value} (hr : r.Bounded bound) {x : Metered}
    (hx : bound.Within x.gauge) (hdepth : x.machine.depth + 1 ≤ bound.calls) :
    bound.Within (.ofResult (Fueled.whileCalling r x)) := by
  have hcalled : bound.Within
      { x.gauge with calls := max x.gauge.calls (x.machine.depth + 1) } :=
    ⟨hx.count, Nat.max_le.2 ⟨hx.calls, hdepth⟩⟩
  have hend := hr ⟨{ x.machine with depth := x.machine.depth + 1 }, _⟩ hcalled
  unfold Fueled.whileCalling
  dsimp only
  split
  · next h =>
    rw [h] at hend
    exact hend
  · next h =>
    rw [h] at hend
    exact hend

/-- Calling a function, if so many calls may be under way. -/
lemma call {limit : Nat} (hlimit : limit ≤ bound.calls) {f : Function} {args : List Value}
    {body : Scope → Fueled Value} (hbody : ∀ s, (body s).Bounded bound) :
    (Fueled.call limit f args body).Bounded bound := by
  intro x hx
  unfold Fueled.call
  split
  · exact hx
  · split
    · exact hx
    · next hdepth =>
      refine whileCalling (fun y hy => ?_) hx (by omega)
      exact settled (hbody (f.enter args y.machine).1) ⟨(f.enter args y.machine).2, y.gauge⟩ hy

end Fueled.Bounded

/-- The most that limits allow a gauge to show: a loop ends with one check too many. -/
def Limits.ceiling (l : Limits) : Gauge := ⟨l.iterations + 1, l.callDepth⟩

section Bounds

variable {l : Limits} {bound : Gauge}

mutual

/-- Evaluating an expression. -/
lemma Expr.bounded_evalFueled (hl : bound.Within l.ceiling) :
    ∀ (n : Nat) (s : Scope) (e : Expr), (e.evalFueled l n s).Bounded bound
  | 0, _, _ => by
    rw [Expr.evalFueled]
    exact .spent
  | _ + 1, _, .number .. | _ + 1, _, .text .. | _ + 1, _, .boolean .. | _ + 1, _, .null .. => by
    rw [Expr.evalFueled]
    exact .pure _
  | _ + 1, _, .name .. | _ + 1, _, .function .. => by
    rw [Expr.evalFueled]
    exact .ofRun _
  | n + 1, s, .call _ callee args => by
    rw [Expr.evalFueled]
    exact .withOperand (callee.bounded_evalFueled hl n s) fun f =>
      .bind (Expr.bounded_evalArgsFueled hl n s args)
        (.applyTo (Function.bounded_callFueled hl n) f)
  | n + 1, s, .binary _ op left right => by
    rw [Expr.evalFueled]
    exact .withOperand (left.bounded_evalFueled hl n s) fun a =>
      .withRight (right.bounded_evalFueled hl n s)
  | n + 1, s, .unary _ op operand => by
    rw [Expr.evalFueled]
    exact .withOperand (operand.bounded_evalFueled hl n s) fun v => .ofRun _
  | n + 1, s, .conditional branches => by
    rw [Expr.evalFueled]
    exact branches.bounded_evalFueled hl n s
  | n + 1, s, .loop _ condition body => by
    rw [Expr.evalFueled]
    exact bounded_loopFueled hl n s condition body 0 .null (Nat.zero_le _)
  | n + 1, s, .paren _ inner => by
    rw [Expr.evalFueled]
    exact inner.bounded_evalFueled hl n s

/-- Evaluating arguments. -/
lemma Expr.bounded_evalArgsFueled (hl : bound.Within l.ceiling) :
    ∀ (n : Nat) (s : Scope) (es : List Expr), (Expr.evalArgsFueled l n s es).Bounded bound
  | 0, _, _ => by
    rw [Expr.evalArgsFueled]
    exact .spent
  | _ + 1, _, [] => by
    rw [Expr.evalArgsFueled]
    exact .pure _
  | n + 1, s, e :: es => by
    rw [Expr.evalArgsFueled]
    exact .withArgument (e.bounded_evalFueled hl n s)
      (Expr.bounded_evalArgsFueled hl n s es)

/-- Evaluating a conditional. -/
lemma Conditional.bounded_evalFueled (hl : bound.Within l.ceiling) :
    ∀ (n : Nat) (s : Scope) (c : Conditional), (c.evalFueled l n s).Bounded bound
  | 0, _, _ => by
    rw [Conditional.evalFueled]
    exact .spent
  | n + 1, s, .ifThen _ condition yes => by
    rw [Conditional.evalFueled]
    exact .withOperand (condition.bounded_evalFueled hl n s) fun v =>
      .choose (yes.bounded_evalFueled hl n s) (.pure _)
  | n + 1, s, .ifElse _ condition yes no => by
    rw [Conditional.evalFueled]
    exact .withOperand (condition.bounded_evalFueled hl n s) fun v =>
      .choose (yes.bounded_evalFueled hl n s) (no.bounded_evalFueled hl n s)
  | n + 1, s, .elseIf _ condition yes next => by
    rw [Conditional.evalFueled]
    exact .withOperand (condition.bounded_evalFueled hl n s) fun v =>
      .choose (yes.bounded_evalFueled hl n s)
        (next.bounded_evalFueled hl n s)

/-- Repeating the body of a loop, while its count is allowed. -/
lemma bounded_loopFueled (hl : bound.Within l.ceiling) :
    ∀ (n : Nat) (s : Scope) (condition : Expr) (body : Block) (counter : UInt64) (last : Value),
      counter.toNat ≤ l.iterations →
      (loopFueled l n s condition body counter last).Bounded bound
  | 0, _, _, _, _, _, _ => by
    rw [loopFueled]
    exact .spent
  | n + 1, s, condition, body, counter, last, hcounter => by
    have hcount : (counter + 1).toNat ≤ bound.count :=
      calc (counter + 1).toNat
        _ = (counter.toNat + 1) % UInt64.size := UInt64.toNat_add counter 1
        _ ≤ counter.toNat + 1 := Nat.mod_le _ _
        _ ≤ l.iterations + 1 := Nat.succ_le_succ hcounter
        _ ≤ bound.count := hl.count
    rw [loopFueled]
    refine .check hcount fun hallowed => ?_
    refine .withOperand (condition.bounded_evalFueled hl n s) fun v => ?_
    refine .choose (.bind (body.bounded_evalFueled hl n s) (.nextRound ?_)) (.pure last)
    exact fun w => bounded_loopFueled hl n s condition body (counter + 1) w hallowed

/-- Evaluating a block. -/
lemma Block.bounded_evalFueled (hl : bound.Within l.ceiling) :
    ∀ (n : Nat) (s : Scope) (b : Block), (b.evalFueled l n s).Bounded bound
  | 0, _, _ => by
    rw [Block.evalFueled]
    exact .spent
  | n + 1, s, .mk _ stmts => by
    rw [Block.evalFueled]
    exact Stmt.bounded_evalListFueled hl n s stmts .null

/-- Evaluating statements. -/
lemma Stmt.bounded_evalListFueled (hl : bound.Within l.ceiling) :
    ∀ (n : Nat) (s : Scope) (stmts : List Stmt) (last : Value),
      (Stmt.evalListFueled l n s stmts last).Bounded bound
  | 0, _, _, _ => by
    rw [Stmt.evalListFueled]
    exact .spent
  | _ + 1, _, [], last => by
    rw [Stmt.evalListFueled]
    exact .pure last
  | n + 1, s, stmt :: stmts, last => by
    rw [Stmt.evalListFueled]
    exact .withOperand (stmt.bounded_evalFueled hl n s)
      (Stmt.bounded_evalListFueled hl n s stmts)

/-- Evaluating a statement. -/
lemma Stmt.bounded_evalFueled (hl : bound.Within l.ceiling) :
    ∀ (n : Nat) (s : Scope) (stmt : Stmt), (stmt.evalFueled l n s).Bounded bound
  | 0, _, _ => by
    rw [Stmt.evalFueled]
    exact .spent
  | n + 1, s, .bind _ _ value | n + 1, s, .assign _ _ value => by
    rw [Stmt.evalFueled]
    exact .withOperand (value.bounded_evalFueled hl n s) fun v => .ofRun _
  | n + 1, s, .returnValue _ value => by
    rw [Stmt.evalFueled]
    exact .withOperand (value.bounded_evalFueled hl n s) fun v => .pure _
  | _ + 1, _, .returnNothing _ | _ + 1, _, .breakLoop _ | _ + 1, _, .continueLoop _ => by
    rw [Stmt.evalFueled]
    exact .pure _
  | n + 1, s, .expr value => by
    cases h : (Stmt.expr value).declared? with
    | none =>
      rw [Stmt.evalFueled_expr h]
      exact value.bounded_evalFueled hl n s
    | some name =>
      obtain ⟨span, params, body, rfl⟩ := Stmt.eq_function_of_declared h
      rw [Stmt.evalFueled]
      exact .ofRun _

/-- Calling a function. -/
lemma Function.bounded_callFueled (hl : bound.Within l.ceiling) :
    ∀ (n : Nat) (f : Function) (args : List Value), (f.callFueled l n args).Bounded bound
  | 0, _, _ => by
    rw [Function.callFueled]
    exact .spent
  | n + 1, f, args => by
    rw [Function.callFueled]
    exact .call hl.calls fun s => f.body.bounded_evalFueled hl n s

end

end Bounds

/-- Evaluation ends.

The loops of a program may have any limit that leaves the machine word in which they are counted
room for one more check, and calls may have any limit. On every machine, whatever functions its
frames hold, and in every scope there is an amount of fuel from which on the evaluation of a program
ends with a value or an error, which is that of `Program.eval`. However much fuel there is, the
count of a loop exceeds the limit by at most one, and no more calls are under way than at the start
or than the limit allows. -/
theorem Program.evaluation_ends {l : Limits} (hl : l.iterations ≤ UInt64.size - 2) (s : Scope)
    (p : Program) (m : Machine) :
    let start : Metered := ⟨m, ⟨0, m.depth⟩⟩
    (∃ N g, ∀ n ≥ N, p.evalFueled l n s start =
      Fueled.ended g (p.eval (l.context m.depth) s m)) ∧
    ∀ n, (Gauge.ofResult (p.evalFueled l n s start)).count ≤ l.iterations + 1 ∧
      (Gauge.ofResult (p.evalFueled l n s start)).calls ≤ max m.depth l.callDepth := by
  intro start
  constructor
  · have hstmts := Stmt.settles_evalList (l.settled_context hl m.depth) s p.stmts .null
    exact (hstmts.settled m ⟨0, m.depth⟩ rfl).2
  · intro n
    have hwithin : Gauge.Within ⟨l.iterations + 1, max m.depth l.callDepth⟩ start.gauge :=
      ⟨Nat.zero_le _, Nat.le_max_left _ _⟩
    have hceiling : Gauge.Within ⟨l.iterations + 1, max m.depth l.callDepth⟩ l.ceiling :=
      ⟨Nat.le_refl _, Nat.le_max_right _ _⟩
    have hbounded := Fueled.Bounded.settled
      (Stmt.bounded_evalListFueled hceiling n s p.stmts .null) start hwithin
    exact ⟨hbounded.count, hbounded.calls⟩

/-- A function that is found in the machine and calls itself from a loop is stopped at the limit of
calls. -/
theorem Program.evaluation_ends_recursion :
    let callSelf : Expr := .call .synthetic (.name .synthetic "f") []
    let body : Block := .mk .synthetic
      [.expr (.loop .synthetic (.boolean .synthetic true) (.mk .synthetic [.expr callSelf]))]
    let m : Machine := { frames := #[[("f", .function ⟨0, some "f", [], body, ⟨0, []⟩⟩)]] }
    let p : Program := ⟨[.expr callSelf], .synthetic⟩
    let start : Metered := ⟨m, ⟨0, 0⟩⟩
    (∃ N x, ∀ n ≥ N, p.evalFueled ⟨1, 2⟩ n ⟨0, []⟩ start = .error (.error .recursionLimit) x) ∧
    ∀ n, (Gauge.ofResult (p.evalFueled ⟨1, 2⟩ n ⟨0, []⟩ start)).count ≤ 2 ∧
      (Gauge.ofResult (p.evalFueled ⟨1, 2⟩ n ⟨0, []⟩ start)).calls ≤ 2 := by
  intro callSelf body m p start
  obtain ⟨⟨N, g, hend⟩, hgauge⟩ :=
    p.evaluation_ends (l := ⟨1, 2⟩) (by decide) ⟨0, []⟩ m
  exact ⟨⟨N, _, fun n hn => (hend n hn).trans rfl⟩, hgauge⟩

end Lugha
