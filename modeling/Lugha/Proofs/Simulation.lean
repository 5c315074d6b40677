import Lugha.Proofs.Growth
import Lugha.Proofs.Likeness
import Mathlib.Data.List.Forall2

/-!
# Two runs in step

A simulation compares two evaluations of trees that are alike.  It says which values,
scopes and machines of the two runs stand for each other, and how the first run may
break off with an error after which the two are no longer compared; from then on all
that is known of the second run is that its machine grows.

`Simulation.Lawful` lists what has to be shown of the single steps: looking a name up,
binding and assigning it, making a function, entering and leaving a call, and calling a
builtin.  The main lemma is `Expr.eval_matches` with its companions for the other kinds
of trees: if the calls of two contexts agree, then so do the evaluations of like trees.
`Function.call_matches` closes the circle by recursion on the calls that may be nested.

The two contexts may allow different numbers of checks and calls, as long as the first
one allows no more than the second and breaks off properly where it allows fewer.
-/

namespace Lugha

/-! ### Values that look the same -/

/-- Values that a program can tell apart only by comparing or calling functions. -/
inductive Value.Alike : Value → Value → Prop
  | refl (v : Value) : Alike v v
  | function {f g : Function} (hname : g.name = f.name) (hparams : g.params = f.params) :
      Alike (.function f) (.function g)
  | returned {v w : Value} : Alike v w → Alike (.returned v) (.returned w)

/-- Whether a value can be written down as a literal. -/
def Value.isLiteral : Value → Bool
  | number _ | text _ | boolean _ | null => true
  | _ => false

namespace Value.Alike

variable {v w : Value}

/-- Values that look the same are signals together. -/
lemma isSignal_eq (h : v.Alike w) : w.isSignal = v.isSignal := by
  cases h <;> rfl

/-- Values that look the same are true together. -/
lemma truthy_eq (h : v.Alike w) : w.truthy = v.truthy := by
  cases h <;> rfl

/-- Functions that look the same have the same name and parameters. -/
lemma function_eq {f g : Function} (h : (Value.function f).Alike (.function g)) :
    g.name = f.name ∧ g.params = f.params := by
  cases h with
  | refl => exact ⟨rfl, rfl⟩
  | function hname hparams => exact ⟨hname, hparams⟩

end Value.Alike

/-- The left operand settles the result by its truth. -/
lemma BinaryOp.settledBy?_congr (op : BinaryOp) {a a' : Value} (h : a.Alike a') :
    op.settledBy? a' = op.settledBy? a := by
  cases op <;> simp [settledBy?, h.truthy_eq]

/-- An operator sees of its operands how they look and whether they are the same. -/
lemma BinaryOp.apply_congr (op : BinaryOp) {a a' b b' : Value} (ha : a.Alike a')
    (hb : b.Alike b') (hsame : a'.same b' = a.same b) : op.apply a' b' = op.apply a b := by
  cases op with
  | both | either => simp [apply, hb.truthy_eq]
  | equal | notEqual => simp [apply, hsame]
  | _ =>
    cases ha with
    | refl a =>
      cases hb with
      | refl b => rfl
      | function | returned => cases a <;> rfl
    | function | returned => cases hb <;> rfl

/-- Arithmetic and order yield literals. -/
lemma BinaryOp.isLiteral_of_numeric {op : BinaryOp} {x y : Float} {v : Value}
    (h : op.numeric x y = .ok v) : v.isLiteral := by
  cases op with
  | div | mod =>
    rw [numeric] at h
    split at h
    · cases h
    · cases h
      rfl
  | _ =>
    cases h
    rfl

/-- An operator between two operands yields a literal. -/
lemma BinaryOp.isLiteral_of_apply {op : BinaryOp} {a b v : Value} (h : op.apply a b = .ok v) :
    v.isLiteral := by
  unfold apply at h
  split at h
  case h_5 => exact isLiteral_of_numeric h
  case h_7 => cases h
  all_goals
    cases h
    rfl

/-- An operator before an operand sees how it looks. -/
lemma UnaryOp.apply_congr (op : UnaryOp) {v v' : Value} (h : v.Alike v') :
    op.apply v' = op.apply v := by
  cases op with
  | invert => simp [apply, h.truthy_eq]
  | negate => cases h <;> rfl

/-- An operator before an operand yields a literal. -/
lemma UnaryOp.isLiteral_of_apply {op : UnaryOp} {v w : Value} (h : op.apply v = .ok w) :
    w.isLiteral := by
  unfold apply at h
  split at h
  case h_3 => cases h
  all_goals
    cases h
    rfl

/-! ### Trees -/

/-- Expressions that are alike are loops together. -/
lemma Expr.Like.isLoop_eq {P : Block → Block → Prop} {e' : Expr} :
    ∀ {e : Expr}, e.Like P e' → e'.isLoop = e.isLoop
  | .number .., h | .text .., h | .boolean .., h | .null .., h | .name .., h | .call .., h
  | .binary .., h | .unary .., h | .conditional .., h | .loop .., h | .function .., h => by
    rw [Expr.Like] at h
    rw [← e'.isLoop_unwrapped]
    obtain ⟨_, h⟩ := h
    grind [Expr.isLoop]
  | .paren _ inner, h => by
    rw [Expr.Like] at h
    rw [h.isLoop_eq, Expr.isLoop]

/-- Statements that are alike are loops together. -/
lemma Stmt.Like.isLoop_eq {P : Block → Block → Prop} {stmt stmt' : Stmt}
    (h : stmt.Like P stmt') : stmt'.isLoop = stmt.isLoop := by
  cases stmt with
  | expr value =>
    rw [Stmt.Like] at h
    obtain ⟨value', rfl, hvalue, -⟩ := h
    exact hvalue.isLoop_eq
  | _ =>
    rw [Stmt.Like] at h
    grind [Stmt.isLoop]

/-! ### Simulations -/

/-- What of two runs stands for each other. -/
structure Simulation where
  value : Value → Value → Prop
  /-- the values that calls yield -/
  result : Value → Value → Prop
  scope : Scope → Scope → Prop
  /-- the bodies of functions that are made in step -/
  body : Block → Block → Prop
  machine : Machine → Machine → Prop
  /-- how the first run may break off: its error and its machine, and a machine of the
  second run at that time or later -/
  cut : EvalError → Machine → Machine → Prop

namespace Simulation

variable (S : Simulation) {α β : Type}

/-- Values that stand for each other and are no signals. -/
def operand (v v' : Value) : Prop := S.value v v' ∧ v.isSignal = false

/-- The values of arguments, or the signals that ended them. -/
def arguments : Except Value (List Value) → Except Value (List Value) → Prop
  | .ok vs, .ok vs' => List.Forall₂ S.operand vs vs'
  | .error v, .error v' => S.value v v'
  | _, _ => False

/-- The results of two runs agree if they stand for each other or the first run has
broken off. -/
inductive Agree (V : α → α → Prop) :
    EStateM.Result EvalError Machine α → EStateM.Result EvalError Machine α → Prop
  | ok {a a' : α} {m m' : Machine} (ha : V a a') (hm : S.machine m m') :
      Agree V (.ok a m) (.ok a' m')
  | error {e : EvalError} {m m' : Machine} (hm : S.machine m m') :
      Agree V (.error e m) (.error e m')
  | cut {e : EvalError} {m : Machine} {r : EStateM.Result EvalError Machine α}
      (hcut : S.cut e m (.ofResult r)) : Agree V (.error e m) r

/-- Two runs match if they agree on machines that stand for each other. -/
def Matches (V : α → α → Prop) (r r' : Run α) : Prop :=
  ∀ ⦃m m' : Machine⦄, S.machine m m' → S.Agree V (r m) (r' m')

/-- The laws of the single steps of two runs. -/
structure Lawful : Prop where
  literal : ∀ {v}, v.isLiteral → S.value v v
  jump : ∀ j, S.value (.jump j) (.jump j)
  returned : ∀ {v v'}, S.operand v v' → S.value (.returned v) (.returned v')
  settled : ∀ {v v'}, S.value (.returned v) (.returned v') → S.result v v'
  yielded : ∀ {v v'}, S.operand v v' → S.result v v'
  result : ∀ {v v'}, S.result v v' → S.value v v'
  alike : ∀ {v v'}, S.value v v' → v.Alike v'
  same : ∀ {v v' w w'}, S.operand v v' → S.operand w w' → v'.same w' = v.same w
  resolve : ∀ {s s'} name, S.scope s s' →
    S.Matches S.value (s.resolve name) (s'.resolve name)
  makeFunction : ∀ {s s'} {name name' : Option Ident} {params params' : List Ident} {b b'},
    S.scope s s' → name'.map (·.name) = name.map (·.name) →
    params'.map (·.name) = params.map (·.name) → b.Like S.body b' → S.body b b' →
    S.Matches S.value (s.makeFunction name params b) (s'.makeFunction name' params' b')
  set : ∀ {s s' v v' m m'} name, S.scope s s' → S.operand v v' → S.machine m m' →
    S.machine (m.set s name v) (m'.set s' name v')
  assign : ∀ {s s' v v'} name, S.scope s s' → S.operand v v' →
    S.Matches S.value (s.assign name v) (s'.assign name v')
  builtin : ∀ {args args'} b, List.Forall₂ S.operand args args' →
    S.Matches S.result (Builtin.apply b args) (Builtin.apply b args')
  body_like : ∀ {f f'}, S.value (.function f) (.function f') → f.body.Like S.body f'.body
  enter : ∀ {f f' args args' m m'}, S.value (.function f) (.function f') →
    List.Forall₂ S.operand args args' → args.length = f.params.length → S.machine m m' →
    S.scope (f.enter args { m with depth := m.depth + 1 }).1
        (f'.enter args' { m' with depth := m'.depth + 1 }).1 ∧
      S.machine (f.enter args { m with depth := m.depth + 1 }).2
        (f'.enter args' { m' with depth := m'.depth + 1 }).2
  leave : ∀ {m m'}, S.machine m m' →
    S.machine { m with depth := m.depth - 1 } { m' with depth := m'.depth - 1 }
  cut_leave : ∀ {e m m'}, S.cut e m m' →
    S.cut e { m with depth := m.depth - 1 } { m' with depth := m'.depth - 1 }
  cut_grows : ∀ {e m m' m''}, S.cut e m m' → m'.Grows m'' → S.cut e m m''

variable {S} (hS : S.Lawful)

/-! ### Runs in step -/

namespace Matches

variable {V : α → α → Prop} {W : β → β → Prop}

/-- Finished runs. -/
lemma pure {a a' : α} (h : V a a') : S.Matches V (Pure.pure a) (Pure.pure a') :=
  fun _ _ hm => .ok h hm

/-- The same error. -/
lemma throw (e : EvalError) : S.Matches V (MonadExcept.throw e) (MonadExcept.throw e) :=
  fun _ _ hm => .error hm

/-- Runs that match closely match loosely. -/
lemma mono {V' : α → α → Prop} {r r' : Run α} (h : ∀ {a a'}, V a a' → V' a a')
    (hr : S.Matches V r r') : S.Matches V' r r' := by
  intro m m' hm
  have hagree := hr hm
  generalize r m = x at hagree
  generalize r' m' = x' at hagree
  cases hagree with
  | ok ha hm => exact .ok (h ha) hm
  | error hm => exact .error hm
  | cut hcut => exact .cut hcut

include hS

/-- One run after another. If the first run breaks off, the second one only grows. -/
lemma bind {r r' : Run α} {k k' : α → Run β} (hr : S.Matches V r r')
    (hk : ∀ {a a'}, V a a' → S.Matches W (k a) (k' a')) (hg : ∀ a, (k' a).Growing) :
    S.Matches W (r >>= k) (r' >>= k') := by
  intro m m' hm
  have h := hr hm
  rw [Run.bind_eq, Run.bind_eq]
  generalize r m = x at h
  generalize r' m' = x' at h
  cases h with
  | ok ha hm => exact hk ha hm
  | error hm => exact .error hm
  | cut hcut =>
    refine .cut (hS.cut_grows hcut ?_)
    cases x' with
    | ok a m => exact hg a m
    | error e m => exact .refl m

end Matches

include hS

/-- The values of operands stand for each other if those of the runs do. -/
lemma value_asOperand {v v' : Value} (isLoop : Bool) (h : S.value v v') :
    S.value (v.asOperand isLoop) (v'.asOperand isLoop) := by
  cases hS.alike h with
  | refl =>
    unfold Value.asOperand
    split
    · split
      · exact hS.literal rfl
      · exact h
    · exact h
  | function | returned => exact h

/-- A signal of the one run is a signal of the other. -/
lemma isSignal_eq {v v' : Value} (h : S.value v v') : v'.isSignal = v.isSignal :=
  (hS.alike h).isSignal_eq

namespace Matches

/-- Going on with an operand. -/
lemma withOperand {isLoop : Bool} {r r' : Run Value} {k k' : Value → Run Value}
    (hr : S.Matches S.value r r')
    (hk : ∀ {v v'}, S.operand v v' → S.Matches S.value (k v) (k' v'))
    (hg : ∀ v, (k' v).Growing) :
    S.Matches S.value (withOperand isLoop r k) (withOperand isLoop r' k') := by
  refine bind hS hr (fun {v v'} h => ?_) fun v => ?_
  · have hv := value_asOperand hS isLoop h
    rw [isSignal_eq hS hv]
    by_cases hsignal : (v.asOperand isLoop).isSignal = true
    · rw [if_pos hsignal, if_pos hsignal]
      exact pure hv
    · rw [if_neg hsignal, if_neg hsignal]
      exact hk ⟨hv, Bool.not_eq_true _ ▸ hsignal⟩
  · split
    · exact .pure _
    · exact hg _

/-- Putting an argument before further ones. -/
lemma withArgument {isLoop : Bool} {r r' : Run Value}
    {rest rest' : Run (Except Value (List Value))} (hr : S.Matches S.value r r')
    (hrest : S.Matches S.arguments rest rest') (hg : rest'.Growing) :
    S.Matches S.arguments (withArgument isLoop r rest) (withArgument isLoop r' rest') := by
  refine bind hS hr (fun {v v'} h => ?_) fun v => ?_
  · have hv := value_asOperand hS isLoop h
    rw [isSignal_eq hS hv]
    by_cases hsignal : (v.asOperand isLoop).isSignal = true
    · rw [if_pos hsignal, if_pos hsignal]
      exact pure hv
    · rw [if_neg hsignal, if_neg hsignal]
      have hoperand : S.operand (v.asOperand isLoop) (v'.asOperand isLoop) :=
        ⟨hv, Bool.not_eq_true _ ▸ hsignal⟩
      refine bind hS hrest (fun {vs vs'} hvs => ?_) fun vs => ?_
      · cases vs <;> cases vs'
        · exact pure hvs
        · exact hvs.elim
        · exact hvs.elim
        · exact pure (.cons hoperand hvs)
      · split <;> exact .pure _
  · split
    · exact .pure _
    · refine .bind hg fun vs => ?_
      split <;> exact .pure _

/-- A literal that is computed without the machines. -/
lemma lift {x : Except EvalError Value} (hx : ∀ {v}, x = .ok v → v.isLiteral) :
    S.Matches S.value (Run.lift x) (Run.lift x) := by
  cases x with
  | error e => exact throw e
  | ok v => exact pure (hS.literal (hx rfl))

/-- Going on with the right operand of an operator. -/
lemma withRight {op : BinaryOp} {a a' : Value} {isLoop : Bool} {right right' : Run Value}
    (ha : S.operand a a') (hright : S.Matches S.value right right') :
    S.Matches S.value (op.withRight a isLoop right) (op.withRight a' isLoop right') := by
  unfold BinaryOp.withRight
  rw [op.settledBy?_congr (hS.alike ha.1)]
  split
  · exact pure (hS.literal rfl)
  · refine withOperand hS hright (fun {b b'} hb => ?_) fun b => .lift _
    rw [op.apply_congr (hS.alike ha.1) (hS.alike hb.1) (hS.same ha hb)]
    exact lift hS BinaryOp.isLiteral_of_apply

/-- One of two runs. -/
lemma choose {v v' : Value} {yes yes' no no' : Run Value} (hv : S.operand v v')
    (hyes : S.Matches S.value yes yes') (hno : S.Matches S.value no no') :
    S.Matches S.value (v.choose yes no) (v'.choose yes' no') := by
  unfold Value.choose
  rw [(hS.alike hv.1).truthy_eq]
  split
  · exact hyes
  · exact hno

/-- Settling the values of runs. -/
lemma settled {r r' : Run Value} (hr : S.Matches S.value r r') :
    S.Matches S.result r.settled r'.settled := by
  refine bind hS hr (fun {v v'} h => ?_) fun v => ?_
  · cases hS.alike h with
    | refl =>
      cases v with
      | returned w => exact pure (hS.settled h)
      | jump j => exact throw _
      | _ => exact pure (hS.yielded ⟨h, rfl⟩)
    | function => exact pure (hS.yielded ⟨h, rfl⟩)
    | returned => exact pure (hS.settled h)
  · cases v <;> exact .of_idle fun _ => rfl

/-- Calls that are counted while they run. -/
lemma whileCalling {r r' : Run Value} {V : Value → Value → Prop}
    (hr : ∀ {m m'}, S.machine m m' → S.Agree V (r { m with depth := m.depth + 1 })
      (r' { m' with depth := m'.depth + 1 })) :
    S.Matches V (whileCalling r) (whileCalling r') := by
  intro m m' hm
  have h := hr hm
  unfold Lugha.whileCalling
  generalize r { m with depth := m.depth + 1 } = x at h
  generalize r' { m' with depth := m'.depth + 1 } = x' at h
  cases h with
  | ok hv hm => exact .ok hv (hS.leave hm)
  | error hm => exact .error (hS.leave hm)
  | cut hcut =>
    refine .cut ?_
    cases x' with
    | ok v m => exact hS.cut_leave hcut
    | error e m => exact hS.cut_leave hcut

/-- Going on after the bodies of loops. -/
lemma nextRound {v v' last last' : Value} {again again' : Value → Run Value}
    (hv : S.value v v') (hlast : S.operand last last')
    (ha : ∀ {w w'}, S.operand w w' → S.Matches S.value (again w) (again' w')) :
    S.Matches S.value (nextRound last again v) (nextRound last' again' v') := by
  cases hS.alike hv with
  | refl =>
    unfold Lugha.nextRound
    split
    · exact ha hlast
    · split
      · exact pure hv
      · next h => exact ha ⟨hv, Bool.not_eq_true _ ▸ h⟩
  | function => exact ha ⟨hv, rfl⟩
  | returned => exact pure hv

/-- Repeating bodies. A loop that may check its condition less often than the other breaks
off when its checks are used up. -/
lemma repeatWhile {condition condition' body body' : Run Value} {isLoop : Bool}
    (hc : S.Matches S.value condition condition') (hb : S.Matches S.value body body')
    (hgc : condition'.Growing) (hgb : body'.Growing) {checks checks' : Nat}
    (hle : checks ≤ checks')
    (hcut : checks < checks' → ∀ {m m'}, S.machine m m' → S.cut .infiniteLoop m m')
    {last last' : Value} (hlast : S.operand last last') :
    S.Matches S.value (repeatWhile condition isLoop body checks last)
      (repeatWhile condition' isLoop body' checks' last') := by
  induction checks generalizing checks' last last' with
  | zero =>
    intro m m' hm
    cases checks' with
    | zero => exact .error hm
    | succ n =>
      have hgrow : (Lugha.repeatWhile condition' isLoop body' (n + 1) last').Growing :=
        .repeatWhile hgc hgb _ _
      exact .cut (hS.cut_grows (hcut n.succ_pos hm) (hgrow m'))
  | succ checks ih =>
    obtain ⟨n, rfl⟩ : ∃ n, checks' = n + 1 := ⟨checks' - 1, by omega⟩
    have hn : checks < n → ∀ {m m'}, S.machine m m' → S.cut .infiniteLoop m m' :=
      fun h => hcut (by omega)
    have hgrow : ∀ v, (Lugha.repeatWhile condition' isLoop body' n v).Growing :=
      .repeatWhile hgc hgb n
    rw [repeatWhile_succ, repeatWhile_succ]
    refine withOperand hS hc (fun hv => ?_) fun v => ?_
    · refine choose hS hv ?_ (pure hlast.1)
      refine bind hS hb (fun hw => ?_) (.nextRound hgrow)
      exact nextRound hS hw hlast fun hw => ih (by omega) hn hw
    · exact .choose (.bind hgb (.nextRound hgrow)) (.pure _)

end Matches

omit hS

variable (S) in
/-- Two contexts whose calls agree. The first one may allow fewer checks of a condition. -/
structure Contexts (cx cx' : Context) : Prop where
  growing : cx'.Growing
  iterations : cx.iterations ≤ cx'.iterations
  exhausted : cx.iterations < cx'.iterations → ∀ {m m'}, S.machine m m' →
    S.cut .infiniteLoop m m'
  apply : ∀ {f f' args args'}, S.operand f f' → List.Forall₂ S.operand args args' →
    S.Matches S.result (cx.apply f args) (cx'.apply f' args')

end Simulation

open Simulation

/-- Calling a value with arguments, if they have values. -/
lemma Context.applyTo_matches {S : Simulation} (hS : S.Lawful) {cx cx' : Context}
    (hcx : S.Contexts cx cx') {f f' : Value} (hf : S.operand f f')
    {args args' : Except Value (List Value)} (hargs : S.arguments args args') :
    S.Matches S.value (cx.applyTo f args) (cx'.applyTo f' args') := by
  cases args <;> cases args'
  · exact .pure hargs
  · exact hargs.elim
  · exact hargs.elim
  · exact .mono hS.result (hcx.apply hf hargs)

/-- Declaring functions makes them and binds their names. -/
lemma Scope.declare_matches {S : Simulation} (hS : S.Lawful) {s s' : Scope}
    (hs : S.scope s s') {name name' : Ident} {params params' : List Ident} {body body' : Block}
    (hname : name'.name = name.name) (hparams : params'.map (·.name) = params.map (·.name))
    (hlike : body.Like S.body body') (hbody : S.body body body') :
    S.Matches S.value (s.declare name params body) (s'.declare name' params' body') := by
  intro m m' hm
  have hsome : (some name').map (·.name) = (some name).map (·.name) := congrArg some hname
  unfold Scope.declare
  rw [hname]
  cases hS.makeFunction hs hsome hparams hlike hbody hm with
  | ok hv hm => exact .ok hv (hS.set name.name hs ⟨hv, rfl⟩ hm)

mutual

/-- Evaluations of like expressions agree. -/
lemma Expr.eval_matches {S : Simulation} (hS : S.Lawful) {cx cx' : Context}
    (hcx : S.Contexts cx cx') {s s' : Scope} (hs : S.scope s s') :
    ∀ (e e' : Expr), e.Like S.body e' → S.Matches S.value (e.eval cx s) (e'.eval cx' s')
  | .number .., e', h | .text .., e', h | .boolean .., e', h | .null .., e', h => by
    rw [Expr.Like] at h
    obtain ⟨span, h⟩ := h
    rw [← e'.eval_unwrapped, h, Expr.eval, Expr.eval]
    exact .pure (hS.literal rfl)
  | .name _ n, e', h => by
    rw [Expr.Like] at h
    obtain ⟨span, h⟩ := h
    rw [← e'.eval_unwrapped, h, Expr.eval, Expr.eval]
    exact hS.resolve n hs
  | .call _ callee args, e', h => by
    rw [Expr.Like] at h
    obtain ⟨span, callee', args', h, hcallee, hargs⟩ := h
    rw [← e'.eval_unwrapped, h, Expr.eval, Expr.eval, hcallee.isLoop_eq]
    have hg := Expr.growing_evalArgs hcx.growing s' args'
    refine .withOperand hS (callee.eval_matches hS hcx hs callee' hcallee) (fun hf => ?_)
      fun f => .bind hg (.applyTo hcx.growing f)
    exact .bind hS (Expr.evalArgs_matches hS hcx hs args args' hargs)
      (fun hargs => Context.applyTo_matches hS hcx hf hargs) (.applyTo hcx.growing _)
  | .binary _ op left right, e', h => by
    rw [Expr.Like] at h
    obtain ⟨span, left', right', h, hleft, hright⟩ := h
    rw [← e'.eval_unwrapped, h, Expr.eval, Expr.eval, hleft.isLoop_eq, hright.isLoop_eq]
    exact .withOperand hS (left.eval_matches hS hcx hs left' hleft)
      (fun ha => .withRight hS ha (right.eval_matches hS hcx hs right' hright))
      fun a => .withRight (right'.growing_eval hcx.growing s')
  | .unary _ op operand, e', h => by
    rw [Expr.Like] at h
    obtain ⟨span, operand', h, hoperand⟩ := h
    rw [← e'.eval_unwrapped, h, Expr.eval, Expr.eval, hoperand.isLoop_eq]
    refine .withOperand hS (operand.eval_matches hS hcx hs operand' hoperand) (fun hv => ?_)
      fun v => .lift _
    rw [op.apply_congr (hS.alike hv.1)]
    exact .lift hS UnaryOp.isLiteral_of_apply
  | .conditional branches, e', h => by
    rw [Expr.Like] at h
    obtain ⟨branches', h, hbranches⟩ := h
    rw [← e'.eval_unwrapped, h, Expr.eval, Expr.eval]
    exact branches.eval_matches hS hcx hs branches' hbranches
  | .loop _ condition body, e', h => by
    rw [Expr.Like] at h
    obtain ⟨span, condition', body', h, hcondition, hbody⟩ := h
    rw [← e'.eval_unwrapped, h, Expr.eval, Expr.eval, hcondition.isLoop_eq]
    exact .repeatWhile hS (condition.eval_matches hS hcx hs condition' hcondition)
      (body.eval_matches hS hcx hs body' hbody) (condition'.growing_eval hcx.growing s')
      (body'.growing_eval hcx.growing s') hcx.iterations hcx.exhausted ⟨hS.literal rfl, rfl⟩
  | .function _ name params body, e', h => by
    rw [Expr.Like] at h
    obtain ⟨span, name', params', body', h, hname, hparams, hlike, hbody⟩ := h
    rw [← e'.eval_unwrapped, h, Expr.eval, Expr.eval]
    exact hS.makeFunction hs hname hparams hlike hbody
  | .paren _ inner, e', h => by
    rw [Expr.Like] at h
    rw [Expr.eval]
    exact inner.eval_matches hS hcx hs e' h

/-- Evaluations of like arguments agree. -/
lemma Expr.evalArgs_matches {S : Simulation} (hS : S.Lawful) {cx cx' : Context}
    (hcx : S.Contexts cx cx') {s s' : Scope} (hs : S.scope s s') :
    ∀ (es es' : List Expr), Expr.LikeList S.body es es' →
      S.Matches S.arguments (Expr.evalArgs cx s es) (Expr.evalArgs cx' s' es')
  | [], es', h => by
    rw [Expr.LikeList] at h
    rw [h, Expr.evalArgs, Expr.evalArgs]
    exact .pure .nil
  | e :: es, es', h => by
    rw [Expr.LikeList] at h
    obtain ⟨e', rest, rfl, he, hes⟩ := h
    rw [Expr.evalArgs, Expr.evalArgs, he.isLoop_eq]
    exact .withArgument hS (e.eval_matches hS hcx hs e' he)
      (Expr.evalArgs_matches hS hcx hs es rest hes) (Expr.growing_evalArgs hcx.growing s' rest)

/-- Evaluations of like conditionals agree. -/
lemma Conditional.eval_matches {S : Simulation} (hS : S.Lawful) {cx cx' : Context}
    (hcx : S.Contexts cx cx') {s s' : Scope} (hs : S.scope s s') :
    ∀ (c c' : Conditional), c.Like S.body c' →
      S.Matches S.value (c.eval cx s) (c'.eval cx' s')
  | .ifThen _ condition yes, c', h => by
    rw [Conditional.Like] at h
    obtain ⟨span, condition', yes', rfl, hcondition, hyes⟩ := h
    rw [Conditional.eval, Conditional.eval, hcondition.isLoop_eq]
    exact .withOperand hS (condition.eval_matches hS hcx hs condition' hcondition)
      (fun hv => .choose hS hv (yes.eval_matches hS hcx hs yes' hyes) (.pure (hS.literal rfl)))
      fun v => .choose (yes'.growing_eval hcx.growing s') (.pure _)
  | .ifElse _ condition yes no, c', h => by
    rw [Conditional.Like] at h
    obtain ⟨span, condition', yes', no', rfl, hcondition, hyes, hno⟩ := h
    rw [Conditional.eval, Conditional.eval, hcondition.isLoop_eq]
    exact .withOperand hS (condition.eval_matches hS hcx hs condition' hcondition)
      (fun hv => .choose hS hv (yes.eval_matches hS hcx hs yes' hyes)
        (no.eval_matches hS hcx hs no' hno))
      fun v => .choose (yes'.growing_eval hcx.growing s') (no'.growing_eval hcx.growing s')
  | .elseIf _ condition yes next, c', h => by
    rw [Conditional.Like] at h
    obtain ⟨span, condition', yes', next', rfl, hcondition, hyes, hnext⟩ := h
    rw [Conditional.eval, Conditional.eval, hcondition.isLoop_eq]
    exact .withOperand hS (condition.eval_matches hS hcx hs condition' hcondition)
      (fun hv => .choose hS hv (yes.eval_matches hS hcx hs yes' hyes)
        (next.eval_matches hS hcx hs next' hnext))
      fun v => .choose (yes'.growing_eval hcx.growing s') (next'.growing_eval hcx.growing s')

/-- Evaluations of like blocks agree. -/
lemma Block.eval_matches {S : Simulation} (hS : S.Lawful) {cx cx' : Context}
    (hcx : S.Contexts cx cx') {s s' : Scope} (hs : S.scope s s') :
    ∀ (b b' : Block), b.Like S.body b' → S.Matches S.value (b.eval cx s) (b'.eval cx' s')
  | .mk _ stmts, b', h => by
    rw [Block.Like] at h
    obtain ⟨span, stmts', rfl, hstmts⟩ := h
    rw [Block.eval, Block.eval]
    exact Stmt.evalList_matches hS hcx hs stmts stmts' hstmts (hS.literal rfl)

/-- Evaluations of like statements in order agree. -/
lemma Stmt.evalList_matches {S : Simulation} (hS : S.Lawful) {cx cx' : Context}
    (hcx : S.Contexts cx cx') {s s' : Scope} (hs : S.scope s s') :
    ∀ (stmts stmts' : List Stmt), Stmt.LikeList S.body stmts stmts' →
      ∀ {last last' : Value}, S.value last last' →
        S.Matches S.value (Stmt.evalList cx s stmts last) (Stmt.evalList cx' s' stmts' last')
  | [], stmts', h, last, last', hlast => by
    rw [Stmt.LikeList] at h
    rw [h, Stmt.evalList, Stmt.evalList]
    exact .pure hlast
  | stmt :: stmts, stmts', h, last, last', hlast => by
    rw [Stmt.LikeList] at h
    obtain ⟨stmt', rest, rfl, hstmt, hstmts⟩ := h
    rw [Stmt.evalList, Stmt.evalList, hstmt.isLoop_eq]
    exact .withOperand hS (stmt.eval_matches hS hcx hs stmt' hstmt)
      (fun hv => Stmt.evalList_matches hS hcx hs stmts rest hstmts hv.1)
      (Stmt.growing_evalList hcx.growing s' rest)

/-- Evaluations of like statements agree. -/
lemma Stmt.eval_matches {S : Simulation} (hS : S.Lawful) {cx cx' : Context}
    (hcx : S.Contexts cx cx') {s s' : Scope} (hs : S.scope s s') :
    ∀ (stmt stmt' : Stmt), stmt.Like S.body stmt' →
      S.Matches S.value (stmt.eval cx s) (stmt'.eval cx' s')
  | .bind _ name value, stmt', h => by
    rw [Stmt.Like] at h
    obtain ⟨span, name', value', rfl, hname, hvalue⟩ := h
    rw [Stmt.eval, Stmt.eval, hvalue.isLoop_eq, hname]
    exact .withOperand hS (value.eval_matches hS hcx hs value' hvalue)
      (fun hv m m' hm => .ok (hS.literal rfl) (hS.set name.name hs hv hm))
      (s'.growing.bind name.name)
  | .assign _ name value, stmt', h => by
    rw [Stmt.Like] at h
    obtain ⟨span, name', value', rfl, hname, hvalue⟩ := h
    rw [Stmt.eval, Stmt.eval, hvalue.isLoop_eq, hname]
    exact .withOperand hS (value.eval_matches hS hcx hs value' hvalue)
      (fun hv => hS.assign name.name hs hv) (s'.growing.assign name.name)
  | .returnValue _ value, stmt', h => by
    rw [Stmt.Like] at h
    obtain ⟨span, value', rfl, hvalue⟩ := h
    rw [Stmt.eval, Stmt.eval, hvalue.isLoop_eq]
    exact .withOperand hS (value.eval_matches hS hcx hs value' hvalue)
      (fun hv => .pure (hS.returned hv)) fun v => .pure _
  | .returnNothing _, stmt', h => by
    rw [Stmt.Like] at h
    obtain ⟨span, rfl⟩ := h
    rw [Stmt.eval, Stmt.eval]
    exact .pure (hS.returned ⟨hS.literal rfl, rfl⟩)
  | .breakLoop _, stmt', h | .continueLoop _, stmt', h => by
    rw [Stmt.Like] at h
    obtain ⟨span, rfl⟩ := h
    rw [Stmt.eval, Stmt.eval]
    exact .pure (hS.jump _)
  | .expr value, stmt', h => by
    rw [Stmt.Like] at h
    obtain ⟨value', rfl, hvalue, hdeclared⟩ := h
    cases hd : (Stmt.expr value).declared? with
    | none =>
      have hd' : (Stmt.expr value').declared? = none := by simpa [hd] using hdeclared
      rw [Stmt.eval_expr hd, Stmt.eval_expr hd']
      exact value.eval_matches hS hcx hs value' hvalue
    | some name =>
      obtain ⟨name', hd', hname⟩ : ∃ name', (Stmt.expr value').declared? = some name' ∧
          name'.name = name.name := by simpa [hd] using hdeclared
      -- a literal in parentheses declares nothing, so both statements are bare literals
      obtain ⟨span, params, body, rfl⟩ := Stmt.eq_function_of_declared hd
      obtain ⟨span', params', body', rfl⟩ := Stmt.eq_function_of_declared hd'
      rw [Expr.Like] at hvalue
      obtain ⟨_, _, _, _, heq, -, hparams, hlike, hbody⟩ := hvalue
      cases heq
      rw [Stmt.eval, Stmt.eval]
      exact Scope.declare_matches hS hs hname hparams hlike hbody

end

/-! ### Calls -/

variable {S : Simulation}

/-- The calls of functions agree. -/
def Simulation.Calls (S : Simulation) (call call' : Function → List Value → Run Value) : Prop :=
  ∀ ⦃f f' args args'⦄, S.value (.function f) (.function f') →
    List.Forall₂ S.operand args args' → S.Matches S.result (call f args) (call' f' args')

/-- Calls of values agree if those of functions do. -/
lemma Value.callBy_matches (hS : S.Lawful) {call call' : Function → List Value → Run Value}
    (hcall : S.Calls call call') {f f' : Value} {args args' : List Value} (hf : S.operand f f')
    (hargs : List.Forall₂ S.operand args args') :
    S.Matches S.result (f.callBy call args) (f'.callBy call' args') := by
  cases hS.alike hf.1 with
  | refl =>
    cases f with
    | function f => exact hcall hf.1 hargs
    | builtin b => exact hS.builtin b hargs
    | _ => exact .throw _
  | function => exact hcall hf.1 hargs
  | returned => exact .throw _

/-- The bodies of functions run in step. -/
lemma Function.perform_matches (hS : S.Lawful) {cx cx' : Context} (hcx : S.Contexts cx cx')
    {f f' : Function} {args args' : List Value} (hf : S.value (.function f) (.function f'))
    (hargs : List.Forall₂ S.operand args args') (hlength : args.length = f.params.length) :
    S.Matches S.result (f.perform cx args) (f'.perform cx' args') := by
  refine .whileCalling hS fun {m m'} hm => ?_
  obtain ⟨hs, hm⟩ := hS.enter hf hargs hlength hm
  exact Matches.settled hS (f.body.eval_matches hS hcx hs f'.body (hS.body_like hf)) hm

/-- Functions that stand for each other take the same number of arguments. -/
lemma Simulation.Lawful.length_params_iff (hS : S.Lawful) {f f' : Function}
    {args args' : List Value} (hf : S.value (.function f) (.function f'))
    (hargs : List.Forall₂ S.operand args args') :
    args'.length = f'.params.length ↔ args.length = f.params.length := by
  rw [hargs.length_eq, (hS.alike hf).function_eq.2]

/-- Calls with the wrong number of arguments fail alike. -/
lemma Function.call_matches_of_length_ne (hS : S.Lawful) {iterations iterations' : Nat}
    {calls calls' : Nat} {f f' : Function} {args args' : List Value}
    (hf : S.value (.function f) (.function f')) (hargs : List.Forall₂ S.operand args args')
    (hlength : args.length ≠ f.params.length) :
    S.Matches S.result (f.call iterations calls args) (f'.call iterations' calls' args') := by
  obtain ⟨hname, hparams⟩ := (hS.alike hf).function_eq
  have hlength' := mt (hS.length_params_iff hf hargs).1 hlength
  rw [Function.call_of_length_ne _ _ hlength, Function.call_of_length_ne _ _ hlength',
    Function.displayName, Function.displayName, hname, hparams, hargs.length_eq]
  exact .throw _

/-- Calls of functions agree. The first run may nest fewer calls, and breaks off where it
would have to nest more. -/
lemma Function.call_matches (hS : S.Lawful) {iterations iterations' : Nat}
    (hle : iterations ≤ iterations')
    (hloop : iterations < iterations' → ∀ {m m'}, S.machine m m' → S.cut .infiniteLoop m m')
    {calls calls' : Nat} (hcalls : calls ≤ calls')
    (hcut : calls < calls' → ∀ {m m'}, S.machine m m' → S.cut .recursionLimit m m') :
    S.Calls (Function.call iterations calls) (Function.call iterations' calls') := by
  induction calls generalizing calls' with
  | zero =>
    intro f f' args args' hf hargs
    by_cases hlength : args.length = f.params.length
    · have hlength' := (hS.length_params_iff hf hargs).2 hlength
      rw [Function.call_zero _ hlength]
      cases calls' with
      | zero =>
        rw [Function.call_zero _ hlength']
        exact .throw _
      | succ n =>
        -- only the second run may go on, and whatever it does lets its machine grow
        intro m m' hm
        have hgrow := Function.growing_call iterations' (n + 1) f' args' m'
        exact .cut (hS.cut_grows (hcut n.succ_pos hm) hgrow)
    · exact Function.call_matches_of_length_ne hS hf hargs hlength
  | succ calls ih =>
    obtain ⟨n, rfl⟩ : ∃ n, calls' = n + 1 := ⟨calls' - 1, by omega⟩
    have hinner := ih (by omega : calls ≤ n) fun h => hcut (by omega)
    have hcx : S.Contexts ⟨iterations, Value.callBy (Function.call iterations calls)⟩
        ⟨iterations', Value.callBy (Function.call iterations' n)⟩ :=
      ⟨Value.growing_callBy (Function.growing_call iterations' n), hle, hloop,
        Value.callBy_matches hS hinner⟩
    intro f f' args args' hf hargs
    by_cases hlength : args.length = f.params.length
    · have hlength' := (hS.length_params_iff hf hargs).2 hlength
      rw [Function.call_succ _ _ hlength, Function.call_succ _ _ hlength']
      exact Function.perform_matches hS hcx hf hargs hlength
    · exact Function.call_matches_of_length_ne hS hf hargs hlength

/-- The contexts of evaluations under two limits agree. The limits of the first run may be
smaller. -/
lemma Limits.contexts_of_le (hS : S.Lawful) {l l' : Limits}
    (hiterations : l.iterations ≤ l'.iterations)
    (hloop : l.iterations < l'.iterations → ∀ {m m'}, S.machine m m' → S.cut .infiniteLoop m m')
    {depth depth' : Nat} (hcalls : l.callDepth - depth ≤ l'.callDepth - depth')
    (hcut : l.callDepth - depth < l'.callDepth - depth' →
      ∀ {m m'}, S.machine m m' → S.cut .recursionLimit m m') :
    S.Contexts (l.context depth) (l'.context depth') where
  growing := l'.growing_context depth'
  iterations := hiterations
  exhausted := hloop
  apply := fun hf hargs =>
    Value.callBy_matches hS (Function.call_matches hS hiterations hloop hcalls hcut) hf hargs

/-- The contexts of two evaluations under the same limits agree. -/
lemma Limits.contexts_self (hS : S.Lawful) (l : Limits) (depth : Nat) :
    S.Contexts (l.context depth) (l.context depth) :=
  Limits.contexts_of_le hS (Nat.le_refl _) (fun h => absurd h (Nat.lt_irrefl _)) (Nat.le_refl _)
    fun h => absurd h (Nat.lt_irrefl _)

/-- Like programs agree in contexts that do. -/
lemma Program.eval_matches (hS : S.Lawful) {cx cx' : Context} (hcx : S.Contexts cx cx')
    {s s' : Scope} (hs : S.scope s s') {p p' : Program}
    (hp : Stmt.LikeList S.body p.stmts p'.stmts) :
    S.Matches S.result (p.eval cx s) (p'.eval cx' s') :=
  .settled hS (Stmt.evalList_matches hS hcx hs p.stmts p'.stmts hp (hS.literal rfl))

/-! ### Runs to their end -/

/-- The laws of runs that neither break off nor differ in their errors, on machines with as many
calls under way. -/
structure Simulation.Steady (S : Simulation) : Prop extends S.Lawful where
  error : ∀ e, S.result (.error e) (.error e)
  depth : ∀ {m m'}, S.machine m m' → m'.depth = m.depth
  uncut : ∀ {e m m'}, ¬ S.cut e m m'

/-- Runs in step end with values that stand for each other, errors included. -/
lemma Simulation.Steady.finish (hS : S.Steady) {V : Value → Value → Prop}
    (hV : ∀ e, V (.error e) (.error e)) {r r' : Run Value} (hr : S.Matches V r r')
    {m m' : Machine} (hm : S.machine m m') :
    V (r.finish m).1 (r'.finish m').1 ∧ S.machine (r.finish m).2 (r'.finish m').2 := by
  have hagree := hr hm
  unfold Run.finish
  generalize r m = x at hagree
  generalize r' m' = x' at hagree
  cases hagree with
  | ok hv hm => exact ⟨hv, hm⟩
  | error hm => exact ⟨hV _, hm⟩
  | cut hcut => exact absurd hcut hS.uncut

/-- Like expressions run in step. -/
lemma Expr.run_matches (hS : S.Steady) (l : Limits) {s s' : Scope} (hs : S.scope s s')
    {e e' : Expr} (he : e.Like S.body e') {m m' : Machine} (hm : S.machine m m') :
    S.value (e.run l s m).1 (e'.run l s' m').1 ∧
      S.machine (e.run l s m).2 (e'.run l s' m').2 := by
  unfold Expr.run
  rw [hS.depth hm]
  exact hS.finish (fun e => hS.result (hS.error e))
    (e.eval_matches hS.toLawful (l.contexts_self hS.toLawful m.depth) hs e' he) hm

/-- Like statements run in step. -/
lemma Stmt.run_matches (hS : S.Steady) (l : Limits) {s s' : Scope} (hs : S.scope s s')
    {stmt stmt' : Stmt} (hstmt : stmt.Like S.body stmt') {m m' : Machine} (hm : S.machine m m') :
    S.value (stmt.run l s m).1 (stmt'.run l s' m').1 ∧
      S.machine (stmt.run l s m).2 (stmt'.run l s' m').2 := by
  unfold Stmt.run
  rw [hS.depth hm]
  exact hS.finish (fun e => hS.result (hS.error e))
    (stmt.eval_matches hS.toLawful (l.contexts_self hS.toLawful m.depth) hs stmt' hstmt) hm

/-- Like programs run in step. -/
lemma Program.run_matches (hS : S.Steady) (l : Limits) {s s' : Scope} (hs : S.scope s s')
    {p p' : Program} (hp : Stmt.LikeList S.body p.stmts p'.stmts) {m m' : Machine}
    (hm : S.machine m m') :
    S.result (p.run l s m).1 (p'.run l s' m').1 ∧
      S.machine (p.run l s m).2 (p'.run l s' m').2 := by
  unfold Program.run
  rw [hS.depth hm]
  exact hS.finish hS.error
    (Program.eval_matches hS.toLawful (l.contexts_self hS.toLawful m.depth) hs hp) hm

/-! ### Runs on the same values -/

/-- The simulation of two runs that have the same values and scopes, and machines that may
differ. -/
def Simulation.ofMachines (machine : Machine → Machine → Prop)
    (cut : EvalError → Machine → Machine → Prop) : Simulation :=
  ⟨Eq, Eq, Eq, Eq, machine, cut⟩

/-- What has to be shown of two runs on the same values: every step does the same on
both machines. -/
structure Simulation.MachineLaws (machine : Machine → Machine → Prop)
    (cut : EvalError → Machine → Machine → Prop) : Prop where
  resolve : ∀ (s : Scope) name,
    (ofMachines machine cut).Matches Eq (s.resolve name) (s.resolve name)
  makeFunction : ∀ (s : Scope) name params body,
    (ofMachines machine cut).Matches Eq (s.makeFunction name params body)
      (s.makeFunction name params body)
  set : ∀ {m m'} s name v, machine m m' → machine (m.set s name v) (m'.set s name v)
  assign : ∀ (s : Scope) name v,
    (ofMachines machine cut).Matches Eq (s.assign name v) (s.assign name v)
  builtin : ∀ b args, (ofMachines machine cut).Matches Eq (Builtin.apply b args) (b.apply args)
  enclose : ∀ {m m'} s, machine m m' →
    (m'.enclose s).1 = (m.enclose s).1 ∧ machine (m.enclose s).2 (m'.enclose s).2
  depth : ∀ {m m'} (f : Nat → Nat), machine m m' →
    machine { m with depth := f m.depth } { m' with depth := f m'.depth }
  cut_leave : ∀ {e m m'}, cut e m m' →
    cut e { m with depth := m.depth - 1 } { m' with depth := m'.depth - 1 }
  cut_grows : ∀ {e m m' m''}, cut e m m' → m'.Grows m'' → cut e m m''

variable {machine : Machine → Machine → Prop} {cut : EvalError → Machine → Machine → Prop}

/-- What is seen of two runs that agree: the same value, or an error with which the first
run has broken off. -/
lemma Simulation.Agree.finish {r r' : Run Value} {m m' : Machine}
    (h : (ofMachines machine cut).Agree Eq (r m) (r' m')) :
    (r'.finish m').1 = (r.finish m).1 ∧ machine (r.finish m).2 (r'.finish m').2 ∨
      ∃ e, (r.finish m).1 = .error e ∧ cut e (r.finish m).2 (r'.finish m').2 := by
  unfold Run.finish
  generalize r m = x at h
  generalize r' m' = x' at h
  cases h with
  | ok hv hm => exact .inl ⟨hv.symm, hm⟩
  | error hm => exact .inl ⟨rfl, hm⟩
  | cut hcut =>
    refine .inr ⟨_, rfl, ?_⟩
    cases x' with
    | ok v m' => exact hcut
    | error e m' => exact hcut

/-- The same program runs in step with itself on two machines. -/
lemma Program.finish_matches (hS : (ofMachines machine cut).Lawful) {cx cx' : Context}
    (hcx : (ofMachines machine cut).Contexts cx cx') (p : Program) (s : Scope) {m m' : Machine}
    (hm : machine m m') :
    (Run.finish (p.eval cx' s) m').1 = (Run.finish (p.eval cx s) m).1 ∧
        machine (Run.finish (p.eval cx s) m).2 (Run.finish (p.eval cx' s) m').2 ∨
      ∃ e, (Run.finish (p.eval cx s) m).1 = .error e ∧
        cut e (Run.finish (p.eval cx s) m).2 (Run.finish (p.eval cx' s) m').2 := by
  have hlike : Stmt.LikeList Eq p.stmts p.stmts := Stmt.likeList_refl (fun _ => rfl) _
  exact (Program.eval_matches hS hcx (rfl : s = s) hlike hm).finish

namespace Simulation.MachineLaws

/-- Entering a function binds the same arguments on both machines. -/
lemma enter (h : MachineLaws machine cut) (f : Function) (args : List Value) {m m' : Machine}
    (hm : machine m m') :
    (f.enter args m').1 = (f.enter args m).1 ∧ machine (f.enter args m).2 (f.enter args m').2 := by
  obtain ⟨hs, henclose⟩ := h.enclose f.scope hm
  refine ⟨hs, ?_⟩
  unfold Function.enter
  dsimp only
  rw [hs]
  exact List.foldl_rel henclose fun b _ m m' hm => h.set _ b.1 b.2 hm

/-- Operands that stand for each other are equal. -/
lemma operands_eq {args args' : List Value}
    (hargs : List.Forall₂ (ofMachines machine cut).operand args args') : args = args' := by
  induction hargs with
  | nil => rfl
  | cons hv _ ih => rw [hv.1, ih]

/-- Runs on the same values follow the laws of simulations. -/
lemma lawful (h : MachineLaws machine cut) : (ofMachines machine cut).Lawful where
  literal := fun _ => rfl
  jump := fun _ => rfl
  returned := fun hv => congrArg Value.returned hv.1
  settled := fun hv => Value.returned.inj hv
  yielded := fun hv => hv.1
  result := id
  alike := fun hv => hv ▸ .refl _
  same := fun hv hw => by rw [hv.1, hw.1]
  resolve := fun name hs => hs ▸ h.resolve _ name
  makeFunction := by
    intro s s' name name' params params' b b' hs hname hparams _ hbody
    have heq : s'.makeFunction name' params' b' = s.makeFunction name params b := by
      cases hs
      cases hbody
      funext m
      unfold Scope.makeFunction
      rw [hname, hparams]
    rw [heq]
    exact h.makeFunction s name params b
  set := fun name hs hv hm => by
    cases hs
    cases hv.1
    exact h.set _ name _ hm
  assign := fun name hs hv => by
    cases hs
    cases hv.1
    exact h.assign _ name _
  builtin := by
    intro args args' b hargs
    rw [operands_eq hargs]
    exact h.builtin b args'
  body_like := fun hf => by
    cases hf
    exact Block.like_refl (fun _ => rfl) _
  enter := by
    intro f f' args args' m m' hf hargs _ hm
    cases hf
    cases operands_eq hargs
    obtain ⟨hs, henter⟩ := h.enter f args (h.depth (· + 1) hm)
    exact ⟨hs.symm, henter⟩
  leave := h.depth (· - 1)
  cut_leave := h.cut_leave
  cut_grows := h.cut_grows

end Simulation.MachineLaws

end Lugha
