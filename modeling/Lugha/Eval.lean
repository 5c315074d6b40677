import Lugha.Builtin
import Lugha.Operator

/-!
# Evaluation

Expressions, statements and blocks are evaluated by recursion on the tree. Calls
are left open: an evaluation is given a way to call a value, and `Function.call`
closes the circle by recursion on the number of calls that may still be nested. A
loop recurses on the number of condition checks that are left. So every evaluation
ends.

A signal is handed outward by whatever evaluates its operands. A loop that was
left early and is used as an operand counts as `tupu`.
-/

namespace Lugha

/-- A result that does not touch the machine. -/
def Run.lift {α : Type} : Except EvalError α → Run α
  | .ok a => fun m => .ok a m
  | .error e => fun m => .error e m

/-- What an evaluation needs beside the machine. -/
structure Context where
  /-- condition checks of one activation of a loop -/
  iterations : Nat
  /-- how a value is called -/
  apply : Value → List Value → Run Value

/-- The value of an operand: a loop that was left early has none. -/
def Value.asOperand (isLoop : Bool) (v : Value) : Value :=
  match v with
  | .jump .vunja => if isLoop then .null else v
  | v => v

/-- Goes on with the value of an operand, or hands a signal outward. -/
@[inline] def withOperand (isLoop : Bool) (r : Run Value) (k : Value → Run Value) : Run Value := do
  let v ← r
  if (v.asOperand isLoop).isSignal then return v.asOperand isLoop else k (v.asOperand isLoop)

/-- The meaning of a name: what it is bound to, else the builtin of that name. -/
def Scope.resolve (s : Scope) (name : String) : Run Value := fun m =>
  match m.get? s name with
  | some v => .ok v m
  | none =>
    match Builtin.ofName? name with
    | some b => .ok (.builtin b) m
    | none => .error (.undefined name) m

/-- Calls a value with arguments, given a way to call functions. -/
def Value.callBy (call : Function → List Value → Run Value) (callee : Value)
    (args : List Value) : Run Value :=
  match callee with
  | .function f => call f args
  | .builtin b => b.apply args
  | v => throw (.notCallable v.typeName)

/-- Calls a value with arguments, or hands outward the signal that ended them. -/
@[inline] def Context.applyTo (cx : Context) (callee : Value) :
    Except Value (List Value) → Run Value
  | .ok args => cx.apply callee args
  | .error signal => pure signal

/-- Puts the value of an argument before those of further arguments. A signal ends that
and is handed outward. -/
@[inline] def withArgument (isLoop : Bool) (r : Run Value)
    (rest : Run (Except Value (List Value))) : Run (Except Value (List Value)) := do
  let v ← r
  if (v.asOperand isLoop).isSignal then return .error (v.asOperand isLoop)
  else
    match ← rest with
    | .ok vs => return .ok (v.asOperand isLoop :: vs)
    | .error signal => return .error signal

/-- Goes on with the right operand of an operator, unless the left one settles the result. -/
@[inline] def BinaryOp.withRight (op : BinaryOp) (a : Value) (isLoop : Bool) (right : Run Value) :
    Run Value :=
  match op.settledBy? a with
  | some b => pure (.boolean b)
  | none => withOperand isLoop right fun b => Run.lift (op.apply a b)

/-- One of two runs, by the truth of a value. -/
@[inline] def Value.choose (v : Value) (yes no : Run Value) : Run Value :=
  if v.truthy then yes else no

/-- Binds a name in a scope. -/
def Scope.bind (s : Scope) (name : String) (v : Value) : Run Value := fun m =>
  .ok .null (m.set s name v)

/-- Changes what a name means in a scope. A name without a meaning is an error. -/
def Scope.assign (s : Scope) (name : String) (v : Value) : Run Value := fun m =>
  match m.assign s name v with
  | (true, m) => .ok .null m
  | (false, m) => .error (.undefined name) m

/-- Makes a function in a scope. -/
def Scope.makeFunction (s : Scope) (name : Option Ident) (params : List Ident) (body : Block) :
    Run Value := fun m =>
  .ok (.function ⟨m.functions, name.map (·.name), params.map (·.name), body, s⟩)
    { m with functions := m.functions + 1 }

/-- Makes a function and binds its name in the scope. -/
def Scope.declare (s : Scope) (name : Ident) (params : List Ident) (body : Block) :
    Run Value := fun m =>
  match s.makeFunction (some name) params body m with
  | .ok f m => .ok f (m.set s name.name f)
  | r => r

/-- Repeats a body while a condition holds, for a number of checks. The value is that of
the last body that ended by itself. -/
def repeatWhile (condition : Run Value) (isLoop : Bool) (body : Run Value) :
    Nat → Value → Run Value
  | 0, _, m => .error .infiniteLoop m
  | checks + 1, last, m =>
    match condition m with
    | .error e m => .error e m
    | .ok v m =>
      let v := v.asOperand isLoop
      if v.isSignal then .ok v m
      else if v.truthy then
        match body m with
        | .error e m => .error e m
        | .ok (.jump .endelea) m => repeatWhile condition isLoop body checks last m
        | .ok v m =>
          if v.isSignal then .ok v m else repeatWhile condition isLoop body checks v m
      else .ok last m

mutual

/-- Evaluates an expression. -/
def Expr.eval (cx : Context) (s : Scope) : Expr → Run Value
  | .number _ x => pure (.number x)
  | .text _ t => pure (.text t)
  | .boolean _ b => pure (.boolean b)
  | .null _ => pure .null
  | .name _ n => s.resolve n
  | .call _ callee args =>
    withOperand callee.isLoop (callee.eval cx s) fun f =>
      Expr.evalArgs cx s args >>= cx.applyTo f
  | .binary _ op left right =>
    withOperand left.isLoop (left.eval cx s) fun a =>
      op.withRight a right.isLoop (right.eval cx s)
  | .unary _ op operand =>
    withOperand operand.isLoop (operand.eval cx s) fun v => Run.lift (op.apply v)
  | .conditional branches => branches.eval cx s
  | .loop _ condition body =>
    repeatWhile (condition.eval cx s) condition.isLoop (body.eval cx s) cx.iterations .null
  | .function _ name params body => s.makeFunction name params body
  | .paren _ inner => inner.eval cx s

/-- Evaluates arguments from left to right; a signal ends that and is handed outward. -/
def Expr.evalArgs (cx : Context) (s : Scope) : List Expr → Run (Except Value (List Value))
  | [] => pure (.ok [])
  | e :: es => withArgument e.isLoop (e.eval cx s) (Expr.evalArgs cx s es)

/-- Evaluates a conditional. Its blocks have no scope of their own. -/
def Conditional.eval (cx : Context) (s : Scope) : Conditional → Run Value
  | .ifThen _ condition yes =>
    withOperand condition.isLoop (condition.eval cx s) fun v =>
      v.choose (yes.eval cx s) (pure .null)
  | .ifElse _ condition yes no =>
    withOperand condition.isLoop (condition.eval cx s) fun v =>
      v.choose (yes.eval cx s) (no.eval cx s)
  | .elseIf _ condition yes next =>
    withOperand condition.isLoop (condition.eval cx s) fun v =>
      v.choose (yes.eval cx s) (next.eval cx s)

/-- Evaluates a block. -/
def Block.eval (cx : Context) (s : Scope) : Block → Run Value
  | .mk _ stmts => Stmt.evalList cx s stmts .null

/-- Evaluates statements in order, up to the first signal. -/
def Stmt.evalList (cx : Context) (s : Scope) : List Stmt → Value → Run Value
  | [], last => pure last
  | stmt :: stmts, _ =>
    withOperand stmt.isLoop (stmt.eval cx s) fun v => Stmt.evalList cx s stmts v

/-- Evaluates a statement. -/
def Stmt.eval (cx : Context) (s : Scope) : Stmt → Run Value
  | .bind _ name value =>
    withOperand value.isLoop (value.eval cx s) fun v => s.bind name.name v
  | .assign _ name value =>
    withOperand value.isLoop (value.eval cx s) fun v => s.assign name.name v
  | .returnValue _ value =>
    withOperand value.isLoop (value.eval cx s) fun v => pure (.returned v)
  | .returnNothing _ => pure (.returned .null)
  | .breakLoop _ => pure (.jump .vunja)
  | .continueLoop _ => pure (.jump .endelea)
  | .expr (.function _ (some name) params body) => s.declare name params body
  | .expr value => value.eval cx s

end

/-! ### Calls -/

/-- The result of a function body or of a program. A returned value is the result; a
jump has no loop to leave. -/
def Value.settle : Value → Run Value
  | .returned v => pure v
  | .jump j => throw (.strayJump j)
  | v => pure v

/-- Settles the value of a run. -/
def Run.settled (r : Run Value) : Run Value := do
  let v ← r
  v.settle

/-- Makes the scope of a call, inside the scope in which the function was made, and
binds the parameters there. -/
def Function.enter (f : Function) (args : List Value) (m : Machine) : Scope × Machine :=
  let (s, m) := m.enclose f.scope
  (s, (f.params.zip args).foldl (fun m b => m.set s b.1 b.2) m)

/-- Counts a call as under way while its body runs. -/
def whileCalling (r : Run Value) : Run Value := fun m =>
  match r { m with depth := m.depth + 1 } with
  | .ok v m => .ok v { m with depth := m.depth - 1 }
  | .error e m => .error e { m with depth := m.depth - 1 }

/-- Runs the body of a function in a scope of its own. -/
def Function.perform (cx : Context) (f : Function) (args : List Value) : Run Value :=
  whileCalling fun m =>
    let (s, m) := f.enter args m
    Run.settled (f.body.eval cx s) m

/-- Calls a function, with a number of calls that may still be nested. The arguments are
counted before the calls are. -/
def Function.call (iterations : Nat) : Nat → Function → List Value → Run Value
  | calls, f, args, m =>
    if args.length ≠ f.params.length then
      .error (.arity f.displayName f.params.length args.length) m
    else
      match calls with
      | 0 => .error .recursionLimit m
      | calls + 1 =>
        f.perform ⟨iterations, Value.callBy (Function.call iterations calls)⟩ args m

/-! ### Programs -/

/-- The context of an evaluation that begins while `depth` calls are under way. -/
def Limits.context (l : Limits) (depth : Nat) : Context :=
  ⟨l.iterations, Value.callBy (Function.call l.iterations (l.callDepth - depth))⟩

/-- The value of a run, in which an error is a value too, and the machine after it. -/
def Run.finish (r : Run Value) (m : Machine) : Value × Machine :=
  match r m with
  | .ok v m => (v, m)
  | .error e m => (.error e, m)

/-- Evaluates an expression. -/
def Expr.run (l : Limits) (s : Scope) (e : Expr) (m : Machine) : Value × Machine :=
  Run.finish (e.eval (l.context m.depth) s) m

/-- Evaluates a statement. -/
def Stmt.run (l : Limits) (s : Scope) (stmt : Stmt) (m : Machine) : Value × Machine :=
  Run.finish (stmt.eval (l.context m.depth) s) m

/-- Evaluates a program in a context. -/
def Program.eval (cx : Context) (s : Scope) (p : Program) : Run Value :=
  Run.settled (Stmt.evalList cx s p.stmts .null)

/-- Evaluates a program. -/
def Program.run (l : Limits) (s : Scope) (p : Program) (m : Machine) : Value × Machine :=
  Run.finish (p.eval (l.context m.depth) s) m

end Lugha
