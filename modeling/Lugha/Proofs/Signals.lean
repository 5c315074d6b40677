import Lugha.Proofs.Data

/-!
# Which signals leave a piece of a program

`vunja` and `endelea` are meant for the loop around them, `rudisha` for the function.  Which of
them a piece of a program can send outward is seen from its text: `Expr.sendsOnly` and its
companions check that every signal is taken inside the piece or is among those that may leave
it, and that the bodies of functions keep to rules of their own.

Evaluation keeps what the text promises.  A loop that was left by `vunja` still has that signal
as its value, and each place where the value is used takes it for `tupu`; so what is said of the
value of an expression is said of it as an operand.  Functions are called far from their text,
and so the frames have to hold functions only whose bodies keep to the rules.

The main lemmas follow the tree, `Function.sends_call` closes the circle by recursion on the
calls that may be nested.  A program whose jumps all stand in loops never ends with a stray one.
-/

namespace Lugha

/-! ### What the text promises -/

/-- The signals that a piece of a program may send outward. -/
structure Signals where
  /-- whether `vunja` and `endelea` may -/
  jumps : Bool
  /-- whether `rudisha` may -/
  returns : Bool

/-- The signals that the body of a loop may send when the loop may send the given ones. -/
def Signals.inLoop (here : Signals) : Signals := { here with jumps := true }

mutual

/-- Whether an expression sends only the given signals outward, and the bodies of the functions
in it only those of `inner`. -/
def Expr.sendsOnly (inner : Signals) : Signals → Expr → Bool
  | _, .number .. | _, .text .. | _, .boolean .. | _, .null .. | _, .name .. => true
  | here, .call _ callee args => callee.sendsOnly inner here && Expr.sendOnly inner here args
  | here, .binary _ _ left right => left.sendsOnly inner here && right.sendsOnly inner here
  | here, .unary _ _ operand => operand.sendsOnly inner here
  | here, .conditional branches => branches.sendsOnly inner here
  | here, .loop _ condition body =>
    condition.sendsOnly inner here && body.sendsOnly inner here.inLoop
  | _, .function _ _ _ body => body.sendsOnly inner inner
  | here, .paren _ operand => operand.sendsOnly inner here

/-- Whether some expressions send only the given signals outward. -/
def Expr.sendOnly (inner : Signals) : Signals → List Expr → Bool
  | _, [] => true
  | here, e :: es => e.sendsOnly inner here && Expr.sendOnly inner here es

/-- Whether a conditional sends only the given signals outward. -/
def Conditional.sendsOnly (inner : Signals) : Signals → Conditional → Bool
  | here, .ifThen _ condition yes =>
    condition.sendsOnly inner here && yes.sendsOnly inner here
  | here, .ifElse _ condition yes no =>
    condition.sendsOnly inner here && yes.sendsOnly inner here && no.sendsOnly inner here
  | here, .elseIf _ condition yes next =>
    condition.sendsOnly inner here && yes.sendsOnly inner here && next.sendsOnly inner here

/-- Whether a block sends only the given signals outward. -/
def Block.sendsOnly (inner : Signals) : Signals → Block → Bool
  | here, .mk _ stmts => Stmt.sendOnly inner here stmts

/-- Whether some statements send only the given signals outward. -/
def Stmt.sendOnly (inner : Signals) : Signals → List Stmt → Bool
  | _, [] => true
  | here, stmt :: stmts => stmt.sendsOnly inner here && Stmt.sendOnly inner here stmts

/-- Whether a statement sends only the given signals outward. -/
def Stmt.sendsOnly (inner : Signals) : Signals → Stmt → Bool
  | here, .bind _ _ value | here, .assign _ _ value | here, .expr value =>
    value.sendsOnly inner here
  | here, .returnValue _ value => here.returns && value.sendsOnly inner here
  | here, .returnNothing _ => here.returns
  | here, .breakLoop _ | here, .continueLoop _ => here.jumps

end

/-- Whether every `vunja` and `endelea` of a program stands in the body of a loop that belongs
to the same function body, or to the text outside all functions. -/
def Program.jumpsInLoops (p : Program) : Bool :=
  Stmt.sendOnly ⟨false, true⟩ ⟨false, true⟩ p.stmts

/-! ### Runs that end in a known way -/

/-- A result whose value, error and machine have given properties. -/
inductive Run.Ends {α : Type} (I : Machine → Prop) (E : EvalError → Prop) (V : α → Prop) :
    EStateM.Result EvalError Machine α → Prop
  | ok {a : α} {m : Machine} (ha : V a) (hm : I m) : Ends I E V (.ok a m)
  | error {e : EvalError} {m : Machine} (he : E e) (hm : I m) : Ends I E V (.error e m)

/-- A run that keeps an invariant of the machine and whose values and errors have given
properties. -/
def Run.Ensures {α : Type} (I : Machine → Prop) (E : EvalError → Prop) (V : α → Prop)
    (r : Run α) : Prop :=
  ∀ m, I m → Run.Ends I E V (r m)

namespace Run.Ensures

variable {α β : Type} {I : Machine → Prop} {E : EvalError → Prop} {V : α → Prop} {W : β → Prop}

/-- A finished run. -/
lemma pure {a : α} (ha : V a) : (Pure.pure a : Run α).Ensures I E V :=
  fun _ hm => .ok ha hm

/-- A failed run. -/
lemma throw {e : EvalError} (he : E e) : (MonadExcept.throw e : Run α).Ensures I E V :=
  fun _ hm => .error he hm

/-- Less may be said of the value. -/
lemma mono {V' : α → Prop} {r : Run α} (hr : r.Ensures I E V) (h : ∀ a, V a → V' a) :
    r.Ensures I E V' := by
  intro m hm
  have hends := hr m hm
  generalize r m = x at hends ⊢
  cases hends with
  | ok ha hm => exact .ok (h _ ha) hm
  | error he hm => exact .error he hm

/-- A result that is computed without the machine. -/
lemma lift {x : Except EvalError α} (hok : ∀ a, x = .ok a → V a) (herror : ∀ e, x = .error e → E e) :
    (Run.lift x).Ensures I E V := by
  intro m hm
  cases x with
  | ok a => exact .ok (hok a rfl) hm
  | error e => exact .error (herror e rfl) hm

/-- One run after another. -/
lemma bind {r : Run α} {k : α → Run β} (hr : r.Ensures I E V)
    (hk : ∀ a, V a → (k a).Ensures I E W) : (r >>= k).Ensures I E W := by
  intro m hm
  have hends := hr m hm
  rw [Run.bind_eq]
  generalize r m = x at hends
  cases hends with
  | ok ha hm => exact hk _ ha _ hm
  | error he hm => exact .error he hm

/-- A call that is counted while it runs. -/
lemma whileCalling {V : Value → Prop} {r : Run Value}
    (hI : ∀ (m : Machine) (depth : Nat), I m → I { m with depth := depth })
    (hr : r.Ensures I E V) : (Lugha.whileCalling r).Ensures I E V := by
  intro m hm
  have hends := hr _ (hI m (m.depth + 1) hm)
  unfold Lugha.whileCalling
  generalize r { m with depth := m.depth + 1 } = x at hends
  cases hends with
  | ok hv hm => exact .ok hv (hI _ _ hm)
  | error he hm => exact .error he (hI _ _ hm)

end Run.Ensures

/-! ### What evaluation keeps -/

/-- Whether an error is that of a jump without a loop. -/
def EvalError.isStray : EvalError → Bool
  | .strayJump _ => true
  | _ => false

/-- Another error says nothing of jumps. -/
lemma EvalError.absurd_isStray {e : EvalError} (h : e.isStray = false) {P : Prop}
    (hstray : e.isStray) : P := by
  rw [h] at hstray
  cases hstray

/-- Data on a set of frames. The body of a function sends only the signals of `inner`. -/
structure Value.Tame (R : Nat → Prop) (inner : Signals) (v : Value) : Prop where
  within : v.Within R
  body : ∀ f, v = .function f → f.body.sendsOnly inner inner

/-- Data, or a signal that may be sent outward. -/
inductive Value.Sent (R : Nat → Prop) (inner here : Signals) : Value → Prop
  | data {v : Value} (h : v.Tame R inner) : Sent R inner here v
  | jump (j : Jump) (h : here.jumps) : Sent R inner here (.jump j)
  | returned {v : Value} (hv : v.Tame R inner) (h : here.returns) : Sent R inner here (.returned v)

/-- The values of arguments, or a signal that ended them. -/
inductive SentArgs (R : Nat → Prop) (inner here : Signals) : Except Value (List Value) → Prop
  | ok {vs : List Value} (h : ∀ v ∈ vs, v.Tame R inner) : SentArgs R inner here (.ok vs)
  | error {v : Value} (hv : v.Sent R inner here) : SentArgs R inner here (.error v)

/-- A run on frames that hold tame values.  It meets a jump without a loop only if function
bodies may send jumps. -/
def Run.Sends {α : Type} (R : Nat → Prop) (inner : Signals) (V : α → Prop) (r : Run α) : Prop :=
  r.Ensures (Machine.Holds R (Value.Tame R inner)) (fun e => e.isStray → inner.jumps) V

/-- A context whose calls of tame values yield tame values. -/
def Context.Sends (R : Nat → Prop) (inner : Signals) (cx : Context) : Prop :=
  ∀ callee args, callee.Tame R inner → (∀ v ∈ args, v.Tame R inner) →
    (cx.apply callee args).Sends R inner (Value.Tame R inner)

section Evaluation

variable {R : Nat → Prop} {inner here : Signals}

/-- Literals are tame. -/
lemma Value.Tame.of_isLiteral {v : Value} (h : v.isLiteral) : v.Tame R inner := by
  refine ⟨.of_isLiteral h, ?_⟩
  rintro f rfl
  cases h

/-- What is sent is tame unless it is a signal. -/
lemma Value.Sent.tame {v : Value} (h : v.Sent R inner here) (hsignal : v.isSignal = false) :
    v.Tame R inner := by
  cases h with
  | data h => exact h
  | jump | returned => cases hsignal

/-- A value may be used as an operand. -/
lemma Value.Sent.asOperand {v : Value} (h : v.Sent R inner here) (isLoop : Bool) :
    (v.asOperand isLoop).Sent R inner here := by
  unfold Value.asOperand
  split
  · split
    · exact .data (.of_isLiteral rfl)
    · exact h
  · exact h

/-- The value of a loop, as an operand, is sent by no `vunja` of its body. -/
lemma Value.Sent.asOperand_of_inLoop {v : Value} (h : v.Sent R inner here.inLoop)
    (hnext : v ≠ .jump .endelea) : (v.asOperand true).Sent R inner here := by
  cases h with
  | data h => exact (Value.Sent.data h).asOperand true
  | returned hv h => exact .returned hv h
  | jump j =>
    cases j with
    | vunja => exact .data (.of_isLiteral rfl)
    | endelea => exact absurd rfl hnext

/-- Arithmetic does not fail with a stray jump. -/
lemma BinaryOp.not_isStray_of_numeric {op : BinaryOp} {x y : Float} {e : EvalError}
    (h : op.numeric x y = .error e) : e.isStray = false := by
  cases op with
  | div | mod =>
    rw [numeric] at h
    split at h
    · cases h
      rfl
    · cases h
  | _ => cases h

/-- An operator between two operands does not fail with a stray jump. -/
lemma BinaryOp.not_isStray {op : BinaryOp} {a b : Value} {e : EvalError}
    (h : op.apply a b = .error e) : e.isStray = false := by
  unfold apply at h
  split at h
  case h_5 => exact not_isStray_of_numeric h
  case h_7 =>
    cases h
    rfl
  all_goals cases h

/-- An operator before an operand does not fail with a stray jump. -/
lemma UnaryOp.not_isStray {op : UnaryOp} {v : Value} {e : EvalError}
    (h : op.apply v = .error e) : e.isStray = false := by
  unfold apply at h
  split at h <;> cases h
  rfl

namespace Run.Sends

/-- Going on with an operand. -/
lemma withOperand {W : Value → Prop} {isLoop : Bool} {r : Run Value} {k : Value → Run Value}
    (hr : r.Sends R inner fun v => (v.asOperand isLoop).Sent R inner here)
    (hk : ∀ v, v.Tame R inner → (k v).Sends R inner W)
    (hsignal : ∀ v, v.isSignal → v.Sent R inner here → W v) :
    (withOperand isLoop r k).Sends R inner W := by
  refine Run.Ensures.bind hr fun v hv => ?_
  split
  · next h => exact .pure (hsignal _ h hv)
  · next h => exact hk _ (hv.tame (Bool.eq_false_iff.2 h))

/-- Going on with an operand, when the same signals may be sent in the end. -/
lemma operand {isLoop : Bool} {r : Run Value} {k : Value → Run Value}
    (hr : r.Sends R inner fun v => (v.asOperand isLoop).Sent R inner here)
    (hk : ∀ v, v.Tame R inner → (k v).Sends R inner (Value.Sent R inner here)) :
    (Lugha.withOperand isLoop r k).Sends R inner (Value.Sent R inner here) :=
  withOperand hr hk fun _ _ hv => hv

/-- What is sent may be used as an operand. -/
lemma asOperand {isLoop : Bool} {r : Run Value}
    (hr : r.Sends R inner (Value.Sent R inner here)) :
    r.Sends R inner fun v => (v.asOperand isLoop).Sent R inner here :=
  Run.Ensures.mono hr fun _ hv => hv.asOperand isLoop

/-- A finished run with a literal. -/
lemma literal {v : Value} (h : v.isLiteral) :
    (pure v : Run Value).Sends R inner (Value.Sent R inner here) :=
  Run.Ensures.pure (.data (.of_isLiteral h))

/-- Putting an argument before further ones. -/
lemma withArgument {isLoop : Bool} {r : Run Value} {rest : Run (Except Value (List Value))}
    (hr : r.Sends R inner fun v => (v.asOperand isLoop).Sent R inner here)
    (hrest : rest.Sends R inner (SentArgs R inner here)) :
    (withArgument isLoop r rest).Sends R inner (SentArgs R inner here) := by
  refine Run.Ensures.bind hr fun v hv => ?_
  split
  · exact .pure (.error hv)
  · next h =>
    have htame := hv.tame (Bool.eq_false_iff.2 h)
    refine Run.Ensures.bind hrest fun vs hvs => ?_
    cases hvs with
    | ok hvs => exact .pure (.ok (List.forall_mem_cons.2 ⟨htame, hvs⟩))
    | error hv => exact .pure (.error hv)

/-- Going on with the right operand of an operator. -/
lemma withRight {op : BinaryOp} {a : Value} {isLoop : Bool} {right : Run Value}
    (hright : right.Sends R inner fun v => (v.asOperand isLoop).Sent R inner here) :
    (op.withRight a isLoop right).Sends R inner (Value.Sent R inner here) := by
  unfold BinaryOp.withRight
  split
  · exact literal rfl
  · refine operand hright fun b _ => Run.Ensures.lift (fun v hv => ?_) fun e he hstray => ?_
    · exact .data (.of_isLiteral (BinaryOp.isLiteral_of_apply hv))
    · exact EvalError.absurd_isStray (BinaryOp.not_isStray he) hstray

/-- One of two runs. -/
lemma choose {W : Value → Prop} {v : Value} {yes no : Run Value} (hyes : yes.Sends R inner W)
    (hno : no.Sends R inner W) : (v.choose yes no).Sends R inner W := by
  unfold Value.choose
  split
  · exact hyes
  · exact hno

/-- Calling a value with arguments, if they have values. -/
lemma applyTo {cx : Context} (hcx : cx.Sends R inner) {callee : Value}
    (hcallee : callee.Tame R inner) {args : Except Value (List Value)}
    (hargs : SentArgs R inner here args) :
    (cx.applyTo callee args).Sends R inner (Value.Sent R inner here) := by
  cases hargs with
  | ok hargs => exact Run.Ensures.mono (hcx _ _ hcallee hargs) fun _ => .data
  | error hv => exact Run.Ensures.pure hv

/-- Repeating a body.  Jumps of the body end with the loop. -/
lemma repeatWhile {condition body : Run Value} {isLoop : Bool}
    (hcondition : condition.Sends R inner fun v => (v.asOperand isLoop).Sent R inner here)
    (hbody : body.Sends R inner (Value.Sent R inner here.inLoop)) (checks : Nat) {last : Value}
    (hlast : last.Tame R inner) :
    Run.Sends R inner (fun v => (v.asOperand true).Sent R inner here)
      (Lugha.repeatWhile condition isLoop body checks last) := by
  induction checks generalizing last with
  | zero =>
    intro m hm
    exact .error (EvalError.absurd_isStray rfl) hm
  | succ checks ih =>
    rw [repeatWhile_succ]
    refine withOperand hcondition (fun v _ => choose ?_ ?_) fun v _ hv => hv.asOperand true
    · refine Run.Ensures.bind hbody fun v hv => ?_
      unfold nextRound
      split
      · exact ih hlast
      · next hnext =>
        split
        · exact .pure (hv.asOperand_of_inLoop hnext)
        · next h => exact ih (hv.tame (Bool.eq_false_iff.2 h))
    · exact .pure ((Value.Sent.data hlast).asOperand true)

/-- Settling the value of a run. -/
lemma settled {r : Run Value} (hr : r.Sends R inner (Value.Sent R inner here))
    (hjumps : here.jumps → inner.jumps) : r.settled.Sends R inner (Value.Tame R inner) := by
  refine Run.Ensures.bind hr fun v hv => ?_
  cases hv with
  | jump j h => exact .throw fun _ => hjumps h
  | returned hv _ => exact .pure hv
  | data h =>
    have hdata := h.within.isData
    cases v with
    | error | jump | returned => cases hdata
    | _ => exact .pure h

end Run.Sends

/-! ### Steps of an evaluation -/

/-- A name means something tame. -/
lemma Scope.sends_resolve {s : Scope} (hs : ∀ i ∈ s.chain, R i) (name : String) :
    (s.resolve name).Sends R inner (Value.Sent R inner here) := by
  intro m hm
  unfold Scope.resolve
  split
  · next hget => exact .ok (.data (hm.find? hs hget)) hm
  · split
    · next b _ =>
      have hwithin : (Value.builtin b).Within R := by
        refine ⟨rfl, ?_⟩
        rintro i ⟨f, hf, -⟩
        cases hf
      refine .ok (.data ⟨hwithin, ?_⟩) hm
      intro f hf
      cases hf
    · exact .error (EvalError.absurd_isStray rfl) hm

/-- A function whose body keeps to the rules is tame. -/
lemma Value.tame_function {f : Function} (hs : ∀ i ∈ f.scope.chain, R i)
    (hbody : f.body.sendsOnly inner inner) : (Value.function f).Tame R inner := by
  refine ⟨⟨rfl, ?_⟩, ?_⟩
  · rintro i ⟨g, hg, hi⟩
    cases hg
    exact hs i hi
  · intro g hg
    cases hg
    exact hbody

/-- Making a function. -/
lemma Scope.sends_makeFunction {s : Scope} (hs : ∀ i ∈ s.chain, R i) (name : Option Ident)
    (params : List Ident) {body : Block} (hbody : body.sendsOnly inner inner) :
    (s.makeFunction name params body).Sends R inner (Value.Sent R inner here) :=
  fun _ hm => .ok (.data (Value.tame_function hs hbody)) (hm.congr rfl)

/-- Making a function and binding its name. -/
lemma Scope.sends_declare {s : Scope} (hs : ∀ i ∈ s.chain, R i) (name : Ident)
    (params : List Ident) {body : Block} (hbody : body.sendsOnly inner inner) :
    (s.declare name params body).Sends R inner (Value.Sent R inner here) := by
  intro m hm
  have hcounted : ({ m with functions := m.functions + 1 } : Machine).Holds R (Value.Tame R inner) :=
    hm.congr rfl
  have htame : (Value.function ⟨m.functions, some name.name, params.map (·.name), body, s⟩).Tame R
      inner := Value.tame_function hs hbody
  exact .ok (.data htame) (hcounted.put s.frame name.name htame)

/-- Binding a name. -/
lemma Scope.sends_bind (s : Scope) (name : String) {v : Value} (hv : v.Tame R inner) :
    (s.bind name v).Sends R inner (Value.Sent R inner here) :=
  fun _ hm => .ok (.data (.of_isLiteral rfl)) (hm.put s.frame name hv)

/-- Assigning a name. -/
lemma Scope.sends_assign (s : Scope) (name : String) {v : Value} (hv : v.Tame R inner) :
    (s.assign name v).Sends R inner (Value.Sent R inner here) := by
  intro m hm
  unfold Scope.assign Machine.assign
  split
  · next h =>
    split at h
    · cases h
      exact .ok (.data (.of_isLiteral rfl)) (hm.put _ _ hv)
    · cases h
  · next h =>
    split at h
    · cases h
    · cases h
      exact .error (EvalError.absurd_isStray rfl) hm

/-- An assertion yields a literal and leaves the frames alone. -/
lemma Builtin.sends_assert (args : List Value) :
    Run.Sends R inner (Value.Tame R inner) (assert args) := by
  intro m hm
  unfold assert
  split
  · exact .error (EvalError.absurd_isStray rfl) hm
  · dsimp only
    split
    · exact .ok (.of_isLiteral rfl) (hm.congr rfl)
    · split
      · exact .ok (.of_isLiteral rfl) hm
      · exact .error (EvalError.absurd_isStray rfl) hm

/-- A builtin yields a literal and leaves the frames alone. -/
lemma Builtin.sends_apply (b : Builtin) (args : List Value) :
    (b.apply args).Sends R inner (Value.Tame R inner) := by
  intro m hm
  cases b with
  | hakiki => exact Builtin.sends_assert args m hm
  | andika => exact .ok (.of_isLiteral rfl) (hm.congr rfl)
  | aina =>
    unfold apply
    dsimp only
    split
    · exact .ok (.of_isLiteral rfl) hm
    · exact .error (EvalError.absurd_isStray rfl) hm

/-! ### Evaluations -/

mutual

/-- The value of an expression, as an operand, is sent as the text promises. -/
lemma Expr.sends_eval {cx : Context} (hcx : cx.Sends R inner) {s : Scope}
    (hs : ∀ i ∈ s.chain, R i) : ∀ (here : Signals) (e : Expr), e.sendsOnly inner here →
      (e.eval cx s).Sends R inner fun v => (v.asOperand e.isLoop).Sent R inner here
  | here, .number _ _, _ | here, .text _ _, _ | here, .boolean _ _, _ | here, .null _, _ => by
    rw [Expr.eval]
    exact .asOperand (.literal rfl)
  | here, .name _ n, _ => by
    rw [Expr.eval]
    exact .asOperand (Scope.sends_resolve hs n)
  | here, .call _ callee args, h => by
    rw [Expr.sendsOnly, Bool.and_eq_true] at h
    have hargs := Expr.sends_evalArgs hcx hs here args h.2
    rw [Expr.eval]
    refine .asOperand (.operand (callee.sends_eval hcx hs here h.1) fun f hf => ?_)
    exact Run.Ensures.bind hargs fun vs hvs => Run.Sends.applyTo hcx hf hvs
  | here, .binary _ op left right, h => by
    rw [Expr.sendsOnly, Bool.and_eq_true] at h
    have hright := right.sends_eval hcx hs here h.2
    rw [Expr.eval]
    exact .asOperand (.operand (left.sends_eval hcx hs here h.1) fun a _ => .withRight hright)
  | here, .unary _ op operand, h => by
    rw [Expr.sendsOnly] at h
    rw [Expr.eval]
    refine .asOperand (.operand (operand.sends_eval hcx hs here h) fun v _ =>
      Run.Ensures.lift (fun w hw => ?_) fun e he hstray => ?_)
    · exact .data (.of_isLiteral (UnaryOp.isLiteral_of_apply hw))
    · exact EvalError.absurd_isStray (UnaryOp.not_isStray he) hstray
  | here, .conditional branches, h => by
    rw [Expr.sendsOnly] at h
    rw [Expr.eval]
    exact .asOperand (branches.sends_eval hcx hs here h)
  | here, .loop _ condition body, h => by
    rw [Expr.sendsOnly, Bool.and_eq_true] at h
    have hcondition := condition.sends_eval hcx hs here h.1
    have hbody := body.sends_eval hcx hs here.inLoop h.2
    rw [Expr.eval]
    exact .repeatWhile hcondition hbody _ (.of_isLiteral rfl)
  | here, .function _ name params body, h => by
    rw [Expr.sendsOnly] at h
    rw [Expr.eval]
    exact .asOperand (Scope.sends_makeFunction hs name params h)
  | here, .paren _ operand, h => by
    rw [Expr.sendsOnly] at h
    rw [Expr.eval, Expr.isLoop]
    exact operand.sends_eval hcx hs here h

/-- The values of arguments are sent as the text promises. -/
lemma Expr.sends_evalArgs {cx : Context} (hcx : cx.Sends R inner) {s : Scope}
    (hs : ∀ i ∈ s.chain, R i) : ∀ (here : Signals) (es : List Expr), Expr.sendOnly inner here es →
      (Expr.evalArgs cx s es).Sends R inner (SentArgs R inner here)
  | here, [], _ => by
    rw [Expr.evalArgs]
    refine Run.Ensures.pure (.ok ?_)
    intro v hv
    cases hv
  | here, e :: es, h => by
    rw [Expr.sendOnly, Bool.and_eq_true] at h
    rw [Expr.evalArgs]
    exact .withArgument (e.sends_eval hcx hs here h.1) (Expr.sends_evalArgs hcx hs here es h.2)

/-- The value of a conditional is sent as the text promises. -/
lemma Conditional.sends_eval {cx : Context} (hcx : cx.Sends R inner) {s : Scope}
    (hs : ∀ i ∈ s.chain, R i) : ∀ (here : Signals) (c : Conditional), c.sendsOnly inner here →
      (c.eval cx s).Sends R inner (Value.Sent R inner here)
  | here, .ifThen _ condition yes, h => by
    rw [Conditional.sendsOnly, Bool.and_eq_true] at h
    have hyes := yes.sends_eval hcx hs here h.2
    rw [Conditional.eval]
    exact .operand (condition.sends_eval hcx hs here h.1) fun _ _ => .choose hyes (.literal rfl)
  | here, .ifElse _ condition yes no, h => by
    rw [Conditional.sendsOnly, Bool.and_eq_true, Bool.and_eq_true] at h
    have hyes := yes.sends_eval hcx hs here h.1.2
    have hno := no.sends_eval hcx hs here h.2
    rw [Conditional.eval]
    exact .operand (condition.sends_eval hcx hs here h.1.1) fun _ _ => .choose hyes hno
  | here, .elseIf _ condition yes next, h => by
    rw [Conditional.sendsOnly, Bool.and_eq_true, Bool.and_eq_true] at h
    have hyes := yes.sends_eval hcx hs here h.1.2
    have hnext := next.sends_eval hcx hs here h.2
    rw [Conditional.eval]
    exact .operand (condition.sends_eval hcx hs here h.1.1) fun _ _ => .choose hyes hnext

/-- The value of a block is sent as the text promises. -/
lemma Block.sends_eval {cx : Context} (hcx : cx.Sends R inner) {s : Scope}
    (hs : ∀ i ∈ s.chain, R i) : ∀ (here : Signals) (b : Block), b.sendsOnly inner here →
      (b.eval cx s).Sends R inner (Value.Sent R inner here)
  | here, .mk _ stmts, h => by
    rw [Block.sendsOnly] at h
    rw [Block.eval]
    exact Stmt.sends_evalList hcx hs here stmts h (.of_isLiteral rfl)

/-- The value of statements in order is sent as the text promises. -/
lemma Stmt.sends_evalList {cx : Context} (hcx : cx.Sends R inner) {s : Scope}
    (hs : ∀ i ∈ s.chain, R i) : ∀ (here : Signals) (stmts : List Stmt),
      Stmt.sendOnly inner here stmts → ∀ {last : Value}, last.Tame R inner →
        (Stmt.evalList cx s stmts last).Sends R inner (Value.Sent R inner here)
  | here, [], _, last, hlast => by
    rw [Stmt.evalList]
    exact Run.Ensures.pure (.data hlast)
  | here, stmt :: stmts, h, last, _ => by
    rw [Stmt.sendOnly, Bool.and_eq_true] at h
    rw [Stmt.evalList]
    exact .operand (stmt.sends_eval hcx hs here h.1) fun v hv =>
      Stmt.sends_evalList hcx hs here stmts h.2 hv

/-- The value of a statement, as an operand, is sent as the text promises. -/
lemma Stmt.sends_eval {cx : Context} (hcx : cx.Sends R inner) {s : Scope}
    (hs : ∀ i ∈ s.chain, R i) : ∀ (here : Signals) (stmt : Stmt), stmt.sendsOnly inner here →
      (stmt.eval cx s).Sends R inner fun v => (v.asOperand stmt.isLoop).Sent R inner here
  | here, .bind _ name value, h => by
    rw [Stmt.sendsOnly] at h
    rw [Stmt.eval]
    exact .asOperand (.operand (value.sends_eval hcx hs here h) fun v hv => s.sends_bind _ hv)
  | here, .assign _ name value, h => by
    rw [Stmt.sendsOnly] at h
    rw [Stmt.eval]
    exact .asOperand (.operand (value.sends_eval hcx hs here h) fun v hv => s.sends_assign _ hv)
  | here, .returnValue _ value, h => by
    rw [Stmt.sendsOnly, Bool.and_eq_true] at h
    rw [Stmt.eval]
    exact .asOperand (.operand (value.sends_eval hcx hs here h.2) fun v hv =>
      Run.Ensures.pure (.returned hv h.1))
  | here, .returnNothing _, h => by
    rw [Stmt.sendsOnly] at h
    rw [Stmt.eval]
    exact .asOperand (Run.Ensures.pure (.returned (.of_isLiteral rfl) h))
  | here, .breakLoop _, h | here, .continueLoop _, h => by
    rw [Stmt.sendsOnly] at h
    rw [Stmt.eval]
    exact .asOperand (Run.Ensures.pure (.jump _ h))
  | here, .expr value, h => by
    rw [Stmt.sendsOnly] at h
    cases hdeclared : (Stmt.expr value).declared? with
    | none =>
      rw [Stmt.eval_expr hdeclared]
      exact value.sends_eval hcx hs here h
    | some name =>
      obtain ⟨span, params, body, rfl⟩ := Stmt.eq_function_of_declared hdeclared
      rw [Expr.sendsOnly] at h
      rw [Stmt.eval]
      exact .asOperand (Scope.sends_declare hs name params h)

end

/-! ### Calls -/

/-- Running the body of a tame function. -/
lemma Function.sends_perform {cx : Context} (hcx : cx.Sends R inner) {f : Function}
    (hf : (Value.function f).Tame R inner) {args : List Value}
    (hargs : ∀ v ∈ args, v.Tame R inner) :
    (f.perform cx args).Sends R inner (Value.Tame R inner) := by
  refine Run.Ensures.whileCalling (fun m depth hm => hm.congr rfl) fun m hm => ?_
  have hscope : ∀ i ∈ f.scope.chain, R i :=
    fun i hi => hf.within.captures i ⟨f, rfl, hi⟩
  obtain ⟨hs, hm⟩ := hm.enter hscope hargs
  have hbody := f.body.sends_eval hcx hs inner (hf.body f rfl)
  exact Run.Sends.settled hbody id _ hm

/-- Calling a tame value, if calls of tame functions yield tame values. -/
lemma Value.sends_callBy {call : Function → List Value → Run Value}
    (hcall : ∀ f args, (Value.function f).Tame R inner → (∀ v ∈ args, v.Tame R inner) →
      (call f args).Sends R inner (Value.Tame R inner))
    (callee : Value) (args : List Value) (hcallee : callee.Tame R inner)
    (hargs : ∀ v ∈ args, v.Tame R inner) :
    (callee.callBy call args).Sends R inner (Value.Tame R inner) := by
  cases callee with
  | function f => exact hcall f args hcallee hargs
  | builtin b => exact b.sends_apply args
  | _ => exact Run.Ensures.throw (EvalError.absurd_isStray rfl)

/-- Calling a tame function yields a tame value. -/
lemma Function.sends_call (iterations calls : Nat) (f : Function) (args : List Value)
    (hf : (Value.function f).Tame R inner) (hargs : ∀ v ∈ args, v.Tame R inner) :
    Run.Sends R inner (Value.Tame R inner) (f.call iterations calls args) := by
  induction calls generalizing f args with
  | zero =>
    by_cases hlength : args.length = f.params.length
    · rw [Function.call_zero _ hlength]
      exact Run.Ensures.throw (EvalError.absurd_isStray rfl)
    · rw [Function.call_of_length_ne _ _ hlength]
      exact Run.Ensures.throw (EvalError.absurd_isStray rfl)
  | succ calls ih =>
    by_cases hlength : args.length = f.params.length
    · rw [Function.call_succ _ _ hlength]
      refine Function.sends_perform ?_ hf hargs
      exact Value.sends_callBy ih
    · rw [Function.call_of_length_ne _ _ hlength]
      exact Run.Ensures.throw (EvalError.absurd_isStray rfl)

/-- The contexts in which programs are evaluated. -/
lemma Limits.sends_context (l : Limits) (depth : Nat) : (l.context depth).Sends R inner :=
  Value.sends_callBy (Function.sends_call _ _)

end Evaluation

/-! ### Programs -/

/-- The value of a program is tame, unless it fails. -/
lemma Program.sends_eval {R : Nat → Prop} {inner here : Signals} {cx : Context}
    (hcx : cx.Sends R inner) {s : Scope} (hs : ∀ i ∈ s.chain, R i) {p : Program}
    (hp : Stmt.sendOnly inner here p.stmts) (hjumps : here.jumps → inner.jumps) :
    (p.eval cx s).Sends R inner (Value.Tame R inner) := by
  have hnull : Value.null.Tame R inner := .of_isLiteral rfl
  exact .settled (Stmt.sends_evalList hcx hs here p.stmts hp hnull) hjumps

/-- A program whose jumps all stand in loops never ends with a stray jump, in a new scope of
any machine and under any limits. -/
theorem Program.run_ne_strayJump (l : Limits) (m : Machine) {p : Program} (h : p.jumpsInLoops)
    (j : Jump) : (p.run l m.newTop.1 m.newTop.2).1 ≠ .error (.strayJump j) := by
  let R : Nat → Prop := (m.frames.size ≤ ·)
  let inner : Signals := ⟨false, true⟩
  have hm : m.newTop.2.Holds R (Value.Tame R inner) := .newTop _ m
  have hs : ∀ i ∈ m.newTop.1.chain, R i := by
    intro i hi
    cases List.mem_singleton.1 hi
    exact Nat.le_refl _
  have hcx : (l.context m.newTop.2.depth).Sends R inner := l.sends_context _
  have hends := Program.sends_eval hcx hs h id m.newTop.2 hm
  unfold Program.run Run.finish
  generalize p.eval (l.context m.newTop.2.depth) m.newTop.1 m.newTop.2 = x at hends
  cases hends with
  | ok hv _ =>
    intro heq
    have hdata := hv.within.isData
    dsimp only at heq
    rw [heq] at hdata
    cases hdata
  | error he _ =>
    intro heq
    cases heq
    cases he rfl

/-- A loop in parentheses is left from the argument of a call, and the function that is called
leaves a loop of its own. -/
theorem Program.run_ne_strayJump_nested :
    let leave : Block := .mk .synthetic [.breakLoop .synthetic]
    let f : Ident := ⟨"f", .synthetic⟩
    let inner : Block := .mk .synthetic [.expr (.loop .synthetic (.name .synthetic "n") leave)]
    let argument : Expr := .conditional (.ifThen .synthetic (.boolean .synthetic true) leave)
    let outer : Block := .mk .synthetic
      [.expr (.call .synthetic (.name .synthetic "f") [.boolean .synthetic true]),
      .expr (.call .synthetic (.name .synthetic "f") [argument])]
    let p : Program :=
      ⟨[.bind .synthetic f (.function .synthetic (some f) [⟨"n", .synthetic⟩] inner),
        .bind .synthetic ⟨"x", .synthetic⟩
          (.paren .synthetic (.loop .synthetic (.boolean .synthetic true) outer))], .synthetic⟩
    let m : Machine := {}
    p.jumpsInLoops ∧ ∀ j, (p.run {} m.newTop.1 m.newTop.2).1 ≠ .error (.strayJump j) := by
  intro leave f inner argument outer p m
  have hjumps : p.jumpsInLoops := rfl
  exact ⟨hjumps, Program.run_ne_strayJump {} m hjumps⟩

end Lugha
