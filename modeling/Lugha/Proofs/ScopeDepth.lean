import Lugha.Proofs.Brackets
import Lugha.Proofs.Conversation
import Lugha.Proofs.Signals

/-!
# How deep scopes are

The scope of a call stands inside the scope in which the function was made, not inside that of the
caller.  So the chain of scopes around it grows with the text and not with the run: it has one frame
for each function literal around the body, and one for the session.  A literal that stands in no
other has lexical depth one.  The functions of a literal of depth `n` capture chains of length `n`,
and their calls run in chains of length `n + 1`.  Each literal is an expression inside the one
around it, and the parser limits how deep expressions are nested.

The scopes of calls cannot be seen after a run.  So a session is compared with one that is
supervised: wherever the body of a function is about to run in the scope of a call, the supervisor
may do anything else instead, except if function and scope are as the text says.  That both sessions
are the same says that they always are.
-/

namespace Lugha

/-! ### The literals of a text -/

/-- A function literal and its lexical depth, which is one if it stands in no other literal. -/
structure Literal where
  depth : Nat
  name : Option Ident
  params : List Ident
  body : Block

mutual

/-- The function literals in an expression that stands in `depth` of them. -/
def Expr.literals (depth : Nat) : Expr → List Literal
  | .number .. | .text .. | .boolean .. | .null .. | .name .. => []
  | .call _ callee args => callee.literals depth ++ Expr.literalsList depth args
  | .binary _ _ left right => left.literals depth ++ right.literals depth
  | .unary _ _ operand => operand.literals depth
  | .conditional branches => branches.literals depth
  | .loop _ condition body => condition.literals depth ++ body.literals depth
  | .function _ name params body =>
    ⟨depth + 1, name, params, body⟩ :: body.literals (depth + 1)
  | .paren _ inner => inner.literals depth

/-- The function literals in arguments. -/
def Expr.literalsList (depth : Nat) : List Expr → List Literal
  | [] => []
  | e :: es => e.literals depth ++ Expr.literalsList depth es

/-- The function literals in a conditional. -/
def Conditional.literals (depth : Nat) : Conditional → List Literal
  | .ifThen _ condition yes => condition.literals depth ++ yes.literals depth
  | .ifElse _ condition yes no =>
    condition.literals depth ++ (yes.literals depth ++ no.literals depth)
  | .elseIf _ condition yes next =>
    condition.literals depth ++ (yes.literals depth ++ next.literals depth)

/-- The function literals in a block. -/
def Block.literals (depth : Nat) : Block → List Literal
  | .mk _ stmts => Stmt.literalsList depth stmts

/-- The function literals in statements. -/
def Stmt.literalsList (depth : Nat) : List Stmt → List Literal
  | [] => []
  | stmt :: stmts => stmt.literals depth ++ Stmt.literalsList depth stmts

/-- The function literals in a statement. -/
def Stmt.literals (depth : Nat) : Stmt → List Literal
  | .bind _ _ value | .assign _ _ value | .returnValue _ value | .expr value =>
    value.literals depth
  | .returnNothing _ | .breakLoop _ | .continueLoop _ => []

end

/-- The function literals of a program. -/
def Program.literals (p : Program) : List Literal := Stmt.literalsList 0 p.stmts

/-- The function literals of the lines that can be read as programs. -/
def Session.literals (lines : List String) : List Literal :=
  lines.flatMap fun line =>
    match (Source.mk "" (Text.trim line)).parse.accepted with
    | .ok p => p.literals
    | .error _ => []

/-- A function as a literal makes it: in a scope whose chain is as long as the literal is deep. -/
structure Function.MadeFrom (f : Function) (lit : Literal) : Prop where
  name : f.name = lit.name.map (·.name)
  params : f.params = lit.params.map (·.name)
  body : f.body = lit.body
  depth : f.scope.chain.length = lit.depth

/-! ### Supervised sessions -/

/-- Calls a function, and hands its body with the scope of the call to a supervisor, and so the
bodies of all functions that are called there. -/
def Function.supervisedCall (watch : Function → Scope → Run Value → Run Value) (iterations : Nat) :
    Nat → Function → List Value → Run Value
  | calls, f, args =>
    if args.length ≠ f.params.length then
      throw (.arity f.displayName f.params.length args.length)
    else
      match calls with
      | 0 => throw .recursionLimit
      | calls + 1 => whileCalling fun m =>
        watch f (f.enter args m).1 (Run.settled (f.body.eval
          ⟨iterations, Value.callBy (Function.supervisedCall watch iterations calls)⟩
          (f.enter args m).1)) (f.enter args m).2

/-- The context of an evaluation in which all calls are supervised. -/
def Limits.supervisedContext (watch : Function → Scope → Run Value → Run Value) (l : Limits)
    (depth : Nat) : Context :=
  ⟨l.iterations, Value.callBy (Function.supervisedCall watch l.iterations (l.callDepth - depth))⟩

/-- Evaluates a program in which all calls are supervised. -/
def Program.supervisedRun (watch : Function → Scope → Run Value → Run Value) (l : Limits)
    (s : Scope) (p : Program) (m : Machine) : Value × Machine :=
  Run.finish (p.eval (l.supervisedContext watch m.depth) s) m

namespace Session

/-- Evaluates a piece of input with a given way to run programs. -/
def evalBy (run : Limits → Scope → Program → Machine → Value × Machine) (s : Session)
    (line : String) : Outcome × Session :=
  let input := Text.trim line
  if input.isEmpty then (.empty, s)
  else if exitCommands.contains input then (.exit, s)
  else
    let s := { s with count := s.count + 1 }
    let src : Source := ⟨"<mstari " ++ toString s.count ++ ">", input⟩
    match src.parse.accepted with
    | .error diagnostics => (.malformed diagnostics, s)
    | .ok program =>
      let (v, m) := run s.limits s.scope program s.machine
      let (output, m) := m.takeOutput
      let value :=
        match v with
        | .null => none
        | v => some v
      (.evaluated output value, { s with machine := m })

/-- A session runs programs as `Program.run` does. -/
lemma evalBy_run (s : Session) (line : String) : s.evalBy Program.run line = s.eval line := rfl

/-- Evaluates pieces of input one after the other, with a given way to run programs. -/
def evalEachBy (run : Limits → Scope → Program → Machine → Value × Machine) (s : Session) :
    List String → List Outcome × Session
  | [] => ([], s)
  | piece :: pieces =>
    let first := s.evalBy run piece
    let others := first.2.evalEachBy run pieces
    (first.1 :: others.1, others.2)

end Session

/-! ### The depth of literals -/

/-- Literals that are no deeper than a bound. -/
def Literal.Within (n : Nat) (lits : List Literal) : Prop := ∀ lit ∈ lits, lit.depth ≤ n

namespace Literal.Within

/-- The bound may be raised. -/
lemma mono {n n' : Nat} {lits : List Literal} (h : Within n lits) (hn : n ≤ n') : Within n' lits :=
  fun lit hlit => Nat.le_trans (h lit hlit) hn

/-- The literals of two pieces of a text. -/
lemma append {n n₁ n₂ : Nat} {lits₁ lits₂ : List Literal} (h₁ : Within n₁ lits₁)
    (h₂ : Within n₂ lits₂) (hn₁ : n₁ ≤ n) (hn₂ : n₂ ≤ n) : Within n (lits₁ ++ lits₂) :=
  List.forall_mem_append.2 ⟨h₁.mono hn₁, h₂.mono hn₂⟩

end Literal.Within

mutual

/-- Each literal around a literal in an expression is one level of the nesting. -/
lemma Expr.within_nesting : ∀ (depth : Nat) (e : Expr),
    Literal.Within (depth + (e.nesting + 1)) (e.literals depth)
  | depth, .number .. | depth, .text .. | depth, .boolean .. | depth, .null ..
  | depth, .name .. => by
    rw [Expr.literals]
    exact List.forall_mem_nil _
  | depth, .call _ callee args => by
    rw [Expr.literals, Expr.nesting]
    exact (callee.within_nesting depth).append (Expr.within_nestingList depth args) (by omega)
      (by omega)
  | depth, .binary _ _ left right => by
    rw [Expr.literals, Expr.nesting]
    exact (left.within_nesting depth).append (right.within_nesting depth) (by omega) (by omega)
  | depth, .unary _ _ operand => by
    rw [Expr.literals, Expr.nesting]
    exact (operand.within_nesting depth).mono (by omega)
  | depth, .conditional branches => by
    rw [Expr.literals, Expr.nesting]
    exact (branches.within_nesting depth).mono (by omega)
  | depth, .loop _ condition body => by
    rw [Expr.literals, Expr.nesting]
    exact (condition.within_nesting depth).append (body.within_nesting depth) (by omega) (by omega)
  | depth, .function _ name params body => by
    rw [Expr.literals, Expr.nesting]
    refine List.forall_mem_cons.2 ⟨Nat.add_le_add_left (Nat.le_add_left 1 _) depth, ?_⟩
    exact (body.within_nesting (depth + 1)).mono (by omega)
  | depth, .paren _ inner => by
    rw [Expr.literals, Expr.nesting]
    exact (inner.within_nesting depth).mono (by omega)

/-- Each literal around a literal in arguments is one level of the nesting. -/
lemma Expr.within_nestingList : ∀ (depth : Nat) (es : List Expr),
    Literal.Within (depth + Expr.nestingList es) (Expr.literalsList depth es)
  | depth, [] => by
    rw [Expr.literalsList]
    exact List.forall_mem_nil _
  | depth, e :: es => by
    rw [Expr.literalsList, Expr.nestingList]
    exact (e.within_nesting depth).append (Expr.within_nestingList depth es) (by omega) (by omega)

/-- Each literal around a literal in a conditional is one level of the nesting. -/
lemma Conditional.within_nesting : ∀ (depth : Nat) (c : Conditional),
    Literal.Within (depth + c.nesting) (c.literals depth)
  | depth, .ifThen _ condition yes => by
    rw [Conditional.literals, Conditional.nesting]
    exact (condition.within_nesting depth).append (yes.within_nesting depth) (by omega) (by omega)
  | depth, .ifElse _ condition yes no => by
    rw [Conditional.literals, Conditional.nesting]
    have hblocks : Literal.Within (depth + max yes.nesting no.nesting) _ :=
      (yes.within_nesting depth).append (no.within_nesting depth) (by omega) (by omega)
    exact (condition.within_nesting depth).append hblocks (by omega) (by omega)
  | depth, .elseIf _ condition yes next => by
    rw [Conditional.literals, Conditional.nesting]
    have hothers : Literal.Within (depth + max yes.nesting next.nesting) _ :=
      (yes.within_nesting depth).append (next.within_nesting depth) (by omega) (by omega)
    exact (condition.within_nesting depth).append hothers (by omega) (by omega)

/-- Each literal around a literal in a block is one level of the nesting. -/
lemma Block.within_nesting : ∀ (depth : Nat) (b : Block),
    Literal.Within (depth + b.nesting) (b.literals depth)
  | depth, .mk _ stmts => by
    rw [Block.literals, Block.nesting]
    exact Stmt.within_nestingList depth stmts

/-- Each literal around a literal in statements is one level of the nesting. -/
lemma Stmt.within_nestingList : ∀ (depth : Nat) (stmts : List Stmt),
    Literal.Within (depth + Stmt.nestingList stmts) (Stmt.literalsList depth stmts)
  | depth, [] => by
    rw [Stmt.literalsList]
    exact List.forall_mem_nil _
  | depth, stmt :: stmts => by
    rw [Stmt.literalsList, Stmt.nestingList]
    exact (stmt.within_nesting depth).append (Stmt.within_nestingList depth stmts) (by omega)
      (by omega)

/-- Each literal around a literal in a statement is one level of the nesting. -/
lemma Stmt.within_nesting : ∀ (depth : Nat) (stmt : Stmt),
    Literal.Within (depth + stmt.nesting) (stmt.literals depth)
  | depth, .bind _ _ value | depth, .assign _ _ value | depth, .returnValue _ value
  | depth, .expr value => by
    rw [Stmt.literals, Stmt.nesting]
    exact value.within_nesting depth
  | depth, .returnNothing _ | depth, .breakLoop _ | depth, .continueLoop _ => by
    rw [Stmt.literals]
    exact List.forall_mem_nil _

end

/-- The program of an accepted source is not nested too deeply. -/
lemma Source.nesting_le_of_accepted {src : Source} {p : Program}
    (h : src.parse.accepted = .ok p) : p.nesting ≤ maxNesting := by
  rw [Parsed.accepted] at h
  split at h
  · cases h
  · next herrors =>
    cases h
    have htotal : ((scan src.text).2.append (parseTokens (scan src.text).1).2).total = 0 :=
      Nat.eq_zero_of_not_pos (of_decide_eq_false (Bool.eq_false_iff.2 herrors))
    have hgrammatical := congrArg ErrorList.total (ErrorList.append_total htotal).2
    obtain ⟨stmts, ts, hstmts, -, hread⟩ :=
      (Parser.sound_topLevel (Parser.derives_expression maxNesting) _
        (.ofTokens (scan src.text).1)).read hgrammatical
    cases hstmts
    exact hread.levels_le

/-- Whether a text can be read as a program does not depend on the name of the source. -/
lemma Source.accepted_congr {name text : String} {p : Program}
    (h : (Source.mk name text).parse.accepted = .ok p) (name' : String) :
    (Source.mk name' text).parse.accepted = .ok p := by
  rw [Parsed.accepted] at h ⊢
  split at h
  · cases h
  · next herrors =>
    cases h
    exact if_neg herrors

/-- The literals of the lines of a session are at most as deep as expressions may be nested. -/
lemma Session.within_literals (lines : List String) :
    Literal.Within maxNesting (Session.literals lines) := by
  intro lit hlit
  obtain ⟨line, -, hlit⟩ := List.mem_flatMap.1 hlit
  split at hlit
  · next p hp =>
    have hdepth := Stmt.within_nestingList 0 p.stmts lit hlit
    exact Nat.le_trans hdepth ((Nat.zero_add _).symm ▸ Source.nesting_le_of_accepted hp)
  · cases hlit

/-! ### Functions made from known literals -/

/-- A function that is made from a known literal, in whose body all literals are known too. -/
def Function.Known (known : Literal → Prop) (f : Function) : Prop :=
  ∃ lit, known lit ∧ f.MadeFrom lit ∧ ∀ inner ∈ lit.body.literals lit.depth, known inner

/-- The functions in a value are made from known literals. -/
def Value.Known (known : Literal → Prop) : Value → Prop
  | .function f => f.Known known
  | .returned v => v.Known known
  | _ => True

/-- The functions in arguments, or in the signal that ended them, are made from known literals. -/
def KnownArgs (known : Literal → Prop) : Except Value (List Value) → Prop
  | .ok vs => ∀ v ∈ vs, v.Known known
  | .error v => v.Known known

/-- All functions that a machine binds are made from known literals. -/
abbrev Machine.Knows (known : Literal → Prop) (m : Machine) : Prop :=
  m.Holds (fun _ => True) (Value.Known known)

section Known

variable {known : Literal → Prop}

/-- A literal value holds no function. -/
lemma Value.known_of_isLiteral {v : Value} (h : v.isLiteral) : v.Known known := by
  cases v <;> trivial

/-- A value may be used as an operand. -/
lemma Value.Known.asOperand {v : Value} (h : v.Known known) (isLoop : Bool) :
    (v.asOperand isLoop).Known known := by
  unfold Value.asOperand
  split
  · split <;> trivial
  · exact h

end Known

/-! ### Runs that agree -/

/-- Two runs that do the same on every machine that binds functions from known literals only, and
leave it so. -/
def Run.Agrees {α : Type} (known : Literal → Prop) (V : α → Prop) (r r' : Run α) : Prop :=
  ∀ m : Machine, m.Knows known →
    r' m = r m ∧ Run.Ends (Machine.Knows known) (fun _ => True) V (r m)

/-- Two contexts whose calls agree. -/
structure Context.Agrees (known : Literal → Prop) (cx cx' : Context) : Prop where
  iterations : cx'.iterations = cx.iterations
  apply : ∀ callee args, callee.Known known → (∀ v ∈ args, v.Known known) →
    Run.Agrees known (Value.Known known) (cx.apply callee args) (cx'.apply callee args)

namespace Run.Agrees

variable {known : Literal → Prop} {α β : Type} {V : α → Prop} {W : β → Prop}

/-- A run that leaves the machine so agrees with itself. -/
lemma of_ensures {r : Run α} (h : r.Ensures (Machine.Knows known) (fun _ => True) V) :
    Agrees known V r r :=
  fun m hm => ⟨rfl, h m hm⟩

/-- A finished run. -/
lemma pure {a : α} (ha : V a) : Agrees known V (Pure.pure a) (Pure.pure a) :=
  of_ensures (.pure ha)

/-- A failed run. -/
lemma throw (e : EvalError) : Agrees known V (MonadExcept.throw e) (MonadExcept.throw e) :=
  of_ensures (.throw trivial)

/-- One run after another. -/
lemma bind {r r' : Run α} {k k' : α → Run β} (hr : Agrees known V r r')
    (hk : ∀ a, V a → Agrees known W (k a) (k' a)) : Agrees known W (r >>= k) (r' >>= k') := by
  intro m hm
  obtain ⟨hsame, hends⟩ := hr m hm
  rw [Run.bind_eq, Run.bind_eq, hsame]
  generalize r m = x at hends
  cases hends with
  | ok ha hm => exact hk _ ha _ hm
  | error he hm => exact ⟨rfl, .error he hm⟩

/-- A result that is computed without the machine. -/
lemma lift {x : Except EvalError Value} (h : ∀ v, x = .ok v → v.isLiteral) :
    Agrees known (Value.Known known) (Run.lift x) (Run.lift x) :=
  of_ensures (.lift (fun v hv => Value.known_of_isLiteral (h v hv)) fun _ _ => trivial)

/-- Going on with an operand. -/
lemma withOperand {isLoop : Bool} {r r' : Run Value} {k k' : Value → Run Value}
    (hr : Agrees known (Value.Known known) r r')
    (hk : ∀ v, v.Known known → Agrees known (Value.Known known) (k v) (k' v)) :
    Agrees known (Value.Known known) (withOperand isLoop r k) (withOperand isLoop r' k') := by
  refine bind hr fun v hv => ?_
  split
  · exact pure (hv.asOperand isLoop)
  · exact hk _ (hv.asOperand isLoop)

/-- Putting an argument before further ones. -/
lemma withArgument {isLoop : Bool} {r r' : Run Value}
    {rest rest' : Run (Except Value (List Value))} (hr : Agrees known (Value.Known known) r r')
    (hrest : Agrees known (KnownArgs known) rest rest') :
    Agrees known (KnownArgs known) (withArgument isLoop r rest) (withArgument isLoop r' rest') := by
  refine bind hr fun v hv => ?_
  split
  · exact pure (hv.asOperand isLoop)
  · refine bind hrest fun vs hvs => ?_
    cases vs with
    | ok vs => exact pure (List.forall_mem_cons.2 ⟨hv.asOperand isLoop, hvs⟩)
    | error w => exact pure hvs

/-- Going on with the right operand of an operator. -/
lemma withRight {op : BinaryOp} {a : Value} {isLoop : Bool} {right right' : Run Value}
    (hright : Agrees known (Value.Known known) right right') :
    Agrees known (Value.Known known) (op.withRight a isLoop right)
      (op.withRight a isLoop right') := by
  unfold BinaryOp.withRight
  split
  · exact pure trivial
  · exact withOperand hright fun b _ => lift fun v hv => BinaryOp.isLiteral_of_apply hv

/-- One of two runs. -/
lemma choose {v : Value} {yes yes' no no' : Run Value}
    (hyes : Agrees known (Value.Known known) yes yes')
    (hno : Agrees known (Value.Known known) no no') :
    Agrees known (Value.Known known) (v.choose yes no) (v.choose yes' no') := by
  unfold Value.choose
  split
  · exact hyes
  · exact hno

/-- Repeating a body. -/
lemma repeatWhile {condition condition' body body' : Run Value} {isLoop : Bool}
    (hcondition : Agrees known (Value.Known known) condition condition')
    (hbody : Agrees known (Value.Known known) body body') (checks : Nat) {last : Value}
    (hlast : last.Known known) :
    Agrees known (Value.Known known) (repeatWhile condition isLoop body checks last)
      (repeatWhile condition' isLoop body' checks last) := by
  induction checks generalizing last with
  | zero => exact throw .infiniteLoop
  | succ checks ih =>
    rw [repeatWhile_succ, repeatWhile_succ]
    refine withOperand hcondition fun v _ => choose (bind hbody fun w hw => ?_) (pure hlast)
    unfold nextRound
    split
    · exact ih hlast
    · split
      · exact pure hw
      · exact ih hw

/-- Calling a value with arguments, if they have values. -/
lemma applyTo {cx cx' : Context} (hcx : Context.Agrees known cx cx') {callee : Value}
    (hcallee : callee.Known known) {args : Except Value (List Value)}
    (hargs : KnownArgs known args) :
    Agrees known (Value.Known known) (cx.applyTo callee args) (cx'.applyTo callee args) := by
  cases args with
  | ok args => exact hcx.apply callee args hcallee hargs
  | error signal => exact pure hargs

/-- Settling the value of a run. -/
lemma settled {r r' : Run Value} (hr : Agrees known (Value.Known known) r r') :
    Agrees known (Value.Known known) r.settled r'.settled := by
  refine bind hr fun v hv => ?_
  cases v with
  | jump j => exact throw _
  | _ => exact pure hv

/-- A call that is counted while it runs. -/
lemma whileCalling {r r' : Run Value} (hr : Agrees known (Value.Known known) r r') :
    Agrees known (Value.Known known) (whileCalling r) (whileCalling r') := by
  intro m hm
  obtain ⟨hsame, -⟩ := hr { m with depth := m.depth + 1 } (hm.congr rfl)
  have hends : (Lugha.whileCalling r).Ensures (Machine.Knows known) (fun _ => True)
      (Value.Known known) :=
    Run.Ensures.whileCalling (fun m depth hm => hm.congr rfl) fun m hm => (hr m hm).2
  refine ⟨?_, hends m hm⟩
  unfold Lugha.whileCalling
  rw [hsame]

end Run.Agrees

/-! ### Steps of an evaluation -/

section Steps

variable {known : Literal → Prop}

/-- The meaning of a name. -/
lemma Scope.agrees_resolve (s : Scope) (name : String) :
    Run.Agrees known (Value.Known known) (s.resolve name) (s.resolve name) := by
  refine .of_ensures fun m hm => ?_
  unfold Scope.resolve
  split
  · next hget => exact .ok (hm.find? (fun _ _ => trivial) hget) hm
  · split
    · exact .ok trivial hm
    · exact .error trivial hm

/-- Binding a name. -/
lemma Scope.agrees_bind (s : Scope) (name : String) {v : Value} (hv : v.Known known) :
    Run.Agrees known (Value.Known known) (s.bind name v) (s.bind name v) :=
  .of_ensures fun _ hm => .ok trivial (hm.put s.frame name hv)

/-- Assigning a name. -/
lemma Scope.agrees_assign (s : Scope) (name : String) {v : Value} (hv : v.Known known) :
    Run.Agrees known (Value.Known known) (s.assign name v) (s.assign name v) := by
  refine .of_ensures fun m hm => ?_
  unfold Scope.assign Machine.assign
  cases m.owner? name s.chain with
  | none => exact .error trivial hm
  | some i => exact .ok trivial (hm.put i name hv)

/-- A function that is made where its literal stands is made from this literal. -/
lemma Function.known_of_literal {s : Scope} {depth number : Nat} (hs : s.chain.length = depth + 1)
    {name : Option Ident} {params : List Ident} {body : Block}
    (h : ∀ lit ∈ Literal.mk (depth + 1) name params body :: body.literals (depth + 1), known lit) :
    Function.Known known ⟨number, name.map (·.name), params.map (·.name), body, s⟩ := by
  obtain ⟨hlit, hinner⟩ := List.forall_mem_cons.1 h
  exact ⟨⟨depth + 1, name, params, body⟩, hlit, ⟨rfl, rfl, rfl, hs⟩, hinner⟩

/-- A builtin yields a literal value and leaves the frames alone. -/
lemma Builtin.agrees_apply (b : Builtin) (args : List Value) :
    Run.Agrees known (Value.Known known) (b.apply args) (b.apply args) := by
  refine .of_ensures fun m hm => ?_
  cases b with
  | andika => exact .ok trivial (hm.congr rfl)
  | aina =>
    unfold apply
    dsimp only
    split
    · exact .ok trivial hm
    · exact .error trivial hm
  | hakiki =>
    unfold apply assert
    dsimp only
    split
    · exact .error trivial hm
    · split
      · exact .ok trivial (hm.congr rfl)
      · split
        · exact .ok trivial hm
        · exact .error trivial hm

end Steps

/-! ### Evaluations -/

section Trees

variable {known : Literal → Prop} {cx cx' : Context} {s : Scope} {depth : Nat}

mutual

/-- Evaluating an expression whose literals are known, in a scope as deep as they say. -/
lemma Expr.agrees_eval (hcx : cx.Agrees known cx') (hs : s.chain.length = depth + 1) :
    ∀ e : Expr, (∀ lit ∈ e.literals depth, known lit) →
      Run.Agrees known (Value.Known known) (e.eval cx s) (e.eval cx' s)
  | .number _ _, _ | .text _ _, _ | .boolean _ _, _ | .null _, _ => by
    rw [Expr.eval, Expr.eval]
    exact .pure trivial
  | .name _ n, _ => by
    rw [Expr.eval, Expr.eval]
    exact s.agrees_resolve n
  | .call _ callee args, h => by
    rw [Expr.literals, List.forall_mem_append] at h
    rw [Expr.eval, Expr.eval]
    exact .withOperand (callee.agrees_eval hcx hs h.1) fun f hf =>
      .bind (Expr.agrees_evalArgs hcx hs args h.2) fun vs hvs => .applyTo hcx hf hvs
  | .binary _ op left right, h => by
    rw [Expr.literals, List.forall_mem_append] at h
    rw [Expr.eval, Expr.eval]
    exact .withOperand (left.agrees_eval hcx hs h.1) fun a _ =>
      .withRight (right.agrees_eval hcx hs h.2)
  | .unary _ op operand, h => by
    rw [Expr.literals] at h
    rw [Expr.eval, Expr.eval]
    exact .withOperand (operand.agrees_eval hcx hs h) fun v _ =>
      .lift fun w hw => UnaryOp.isLiteral_of_apply hw
  | .conditional branches, h => by
    rw [Expr.literals] at h
    rw [Expr.eval, Expr.eval]
    exact branches.agrees_eval hcx hs h
  | .loop _ condition body, h => by
    rw [Expr.literals, List.forall_mem_append] at h
    rw [Expr.eval, Expr.eval, hcx.iterations]
    exact .repeatWhile (condition.agrees_eval hcx hs h.1) (body.agrees_eval hcx hs h.2) _ trivial
  | .function _ name params body, h => by
    rw [Expr.literals] at h
    rw [Expr.eval, Expr.eval]
    exact .of_ensures fun m hm => .ok (Function.known_of_literal hs h) (hm.congr rfl)
  | .paren _ inner, h => by
    rw [Expr.literals] at h
    rw [Expr.eval, Expr.eval]
    exact inner.agrees_eval hcx hs h

/-- Evaluating arguments whose literals are known. -/
lemma Expr.agrees_evalArgs (hcx : cx.Agrees known cx') (hs : s.chain.length = depth + 1) :
    ∀ es : List Expr, (∀ lit ∈ Expr.literalsList depth es, known lit) →
      Run.Agrees known (KnownArgs known) (Expr.evalArgs cx s es) (Expr.evalArgs cx' s es)
  | [], _ => by
    rw [Expr.evalArgs, Expr.evalArgs]
    exact .pure (List.forall_mem_nil _)
  | e :: es, h => by
    rw [Expr.literalsList, List.forall_mem_append] at h
    rw [Expr.evalArgs, Expr.evalArgs]
    exact .withArgument (e.agrees_eval hcx hs h.1) (Expr.agrees_evalArgs hcx hs es h.2)

/-- Evaluating a conditional whose literals are known. -/
lemma Conditional.agrees_eval (hcx : cx.Agrees known cx') (hs : s.chain.length = depth + 1) :
    ∀ c : Conditional, (∀ lit ∈ c.literals depth, known lit) →
      Run.Agrees known (Value.Known known) (c.eval cx s) (c.eval cx' s)
  | .ifThen _ condition yes, h => by
    rw [Conditional.literals, List.forall_mem_append] at h
    rw [Conditional.eval, Conditional.eval]
    exact .withOperand (condition.agrees_eval hcx hs h.1) fun v _ =>
      .choose (yes.agrees_eval hcx hs h.2) (.pure trivial)
  | .ifElse _ condition yes no, h => by
    rw [Conditional.literals, List.forall_mem_append, List.forall_mem_append] at h
    rw [Conditional.eval, Conditional.eval]
    exact .withOperand (condition.agrees_eval hcx hs h.1) fun v _ =>
      .choose (yes.agrees_eval hcx hs h.2.1) (no.agrees_eval hcx hs h.2.2)
  | .elseIf _ condition yes next, h => by
    rw [Conditional.literals, List.forall_mem_append, List.forall_mem_append] at h
    rw [Conditional.eval, Conditional.eval]
    exact .withOperand (condition.agrees_eval hcx hs h.1) fun v _ =>
      .choose (yes.agrees_eval hcx hs h.2.1) (next.agrees_eval hcx hs h.2.2)

/-- Evaluating a block whose literals are known. -/
lemma Block.agrees_eval (hcx : cx.Agrees known cx') (hs : s.chain.length = depth + 1) :
    ∀ b : Block, (∀ lit ∈ b.literals depth, known lit) →
      Run.Agrees known (Value.Known known) (b.eval cx s) (b.eval cx' s)
  | .mk _ stmts, h => by
    rw [Block.literals] at h
    rw [Block.eval, Block.eval]
    exact Stmt.agrees_evalList hcx hs stmts trivial h

/-- Evaluating statements whose literals are known. -/
lemma Stmt.agrees_evalList (hcx : cx.Agrees known cx') (hs : s.chain.length = depth + 1) :
    ∀ (stmts : List Stmt) {last : Value}, last.Known known →
      (∀ lit ∈ Stmt.literalsList depth stmts, known lit) →
      Run.Agrees known (Value.Known known) (Stmt.evalList cx s stmts last)
        (Stmt.evalList cx' s stmts last)
  | [], last, hlast, _ => by
    rw [Stmt.evalList, Stmt.evalList]
    exact .pure hlast
  | stmt :: stmts, _, _, h => by
    rw [Stmt.literalsList, List.forall_mem_append] at h
    rw [Stmt.evalList, Stmt.evalList]
    exact .withOperand (stmt.agrees_eval hcx hs h.1) fun v hv =>
      Stmt.agrees_evalList hcx hs stmts hv h.2

/-- Evaluating a statement whose literals are known. -/
lemma Stmt.agrees_eval (hcx : cx.Agrees known cx') (hs : s.chain.length = depth + 1) :
    ∀ stmt : Stmt, (∀ lit ∈ stmt.literals depth, known lit) →
      Run.Agrees known (Value.Known known) (stmt.eval cx s) (stmt.eval cx' s)
  | .bind _ name value, h => by
    rw [Stmt.literals] at h
    rw [Stmt.eval, Stmt.eval]
    exact .withOperand (value.agrees_eval hcx hs h) fun v hv => s.agrees_bind name.name hv
  | .assign _ name value, h => by
    rw [Stmt.literals] at h
    rw [Stmt.eval, Stmt.eval]
    exact .withOperand (value.agrees_eval hcx hs h) fun v hv => s.agrees_assign name.name hv
  | .returnValue _ value, h => by
    rw [Stmt.literals] at h
    rw [Stmt.eval, Stmt.eval]
    exact .withOperand (value.agrees_eval hcx hs h) fun v hv => .pure hv
  | .returnNothing _, _ | .breakLoop _, _ | .continueLoop _, _ => by
    rw [Stmt.eval, Stmt.eval]
    exact .pure trivial
  | .expr value, h => by
    rw [Stmt.literals] at h
    cases hdeclared : (Stmt.expr value).declared? with
    | none =>
      rw [Stmt.eval_expr hdeclared, Stmt.eval_expr hdeclared]
      exact value.agrees_eval hcx hs h
    | some name =>
      obtain ⟨span, params, body, rfl⟩ := Stmt.eq_function_of_declared hdeclared
      rw [Expr.literals] at h
      rw [Stmt.eval, Stmt.eval]
      refine .of_ensures fun m hm => ?_
      have hf : Value.Known known (.function
          ⟨m.functions, some name.name, params.map (·.name), body, s⟩) :=
        Function.known_of_literal hs h
      have hcounted : ({ m with functions := m.functions + 1 } : Machine).Knows known :=
        hm.congr rfl
      exact .ok hf (hcounted.put s.frame name.name hf)

end

end Trees

/-! ### Calls -/

/-- A supervisor that lets a body run in the scope of a call if the function is made from a known
literal and the chain is one frame longer than the literal is deep. -/
def Trusts (known : Literal → Prop) (watch : Function → Scope → Run Value → Run Value) : Prop :=
  ∀ f s r, (∃ lit, known lit ∧ f.MadeFrom lit ∧ s.chain.length = lit.depth + 1) → watch f s r = r

section Calls

variable {known : Literal → Prop} {watch : Function → Scope → Run Value → Run Value}

/-- The body of a function runs in a scope that is one deeper than its literal. -/
lemma Function.agrees_inside (htrusts : Trusts known watch) {cx cx' : Context}
    (hcx : cx.Agrees known cx') {f : Function} (hf : f.Known known) {args : List Value}
    (hargs : ∀ v ∈ args, v.Known known) :
    Run.Agrees known (Value.Known known) (f.inside cx args) fun m =>
      watch f (f.enter args m).1 (Run.settled (f.body.eval cx' (f.enter args m).1))
        (f.enter args m).2 := by
  intro m hm
  obtain ⟨lit, hlit, hmade, hinner⟩ := hf
  have hchain : (f.enter args m).1.chain.length = lit.depth + 1 :=
    congrArg (· + 1) hmade.depth
  obtain ⟨-, hentered⟩ := hm.enter (f := f) (fun _ _ => trivial) hargs
  dsimp only
  rw [htrusts f (f.enter args m).1 _ ⟨lit, hlit, hmade, hchain⟩]
  have hbody := Block.agrees_eval hcx hchain f.body (hmade.body ▸ hinner)
  exact hbody.settled (f.enter args m).2 hentered

/-- Calling a value, if functions can be called. -/
lemma Context.agrees_callBy (iterations : Nat) {call call' : Function → List Value → Run Value}
    (hcall : ∀ f args, f.Known known → (∀ v ∈ args, v.Known known) →
      Run.Agrees known (Value.Known known) (call f args) (call' f args)) :
    Context.Agrees known ⟨iterations, Value.callBy call⟩ ⟨iterations, Value.callBy call'⟩ := by
  refine ⟨rfl, fun callee args hcallee hargs => ?_⟩
  cases callee with
  | function f => exact hcall f args hcallee hargs
  | builtin b => exact b.agrees_apply args
  | _ => exact .throw _

/-- A call and a supervised call agree. -/
lemma Function.agrees_supervisedCall (htrusts : Trusts known watch) (iterations calls : Nat)
    (f : Function) (args : List Value) (hf : f.Known known) (hargs : ∀ v ∈ args, v.Known known) :
    Run.Agrees known (Value.Known known) (f.call iterations calls args)
      (f.supervisedCall watch iterations calls args) := by
  induction calls generalizing f args with
  | zero =>
    by_cases hlength : args.length = f.params.length
    · rw [Function.call_zero _ hlength, supervisedCall, if_neg (not_not_intro hlength)]
      exact .throw _
    · rw [Function.call_of_length_ne _ _ hlength, supervisedCall, if_pos hlength]
      exact .throw _
  | succ calls ih =>
    by_cases hlength : args.length = f.params.length
    · rw [Function.call_succ _ _ hlength, supervisedCall, if_neg (not_not_intro hlength)]
      exact .whileCalling (agrees_inside htrusts (Context.agrees_callBy iterations ih) hf hargs)
    · rw [Function.call_of_length_ne _ _ hlength, supervisedCall, if_pos hlength]
      exact .throw _

/-- A program whose literals are known, in a scope that is inside no other. -/
lemma Program.supervisedRun_eq (htrusts : Trusts known watch) (l : Limits) {s : Scope}
    (hs : s.chain.length = 1) {p : Program} (hp : ∀ lit ∈ p.literals, known lit) {m : Machine}
    (hm : m.Knows known) :
    p.supervisedRun watch l s m = p.run l s m ∧ (p.run l s m).2.Knows known := by
  have hcx : (l.context m.depth).Agrees known (l.supervisedContext watch m.depth) :=
    Context.agrees_callBy _ (Function.agrees_supervisedCall htrusts _ _)
  have hnull : Value.Known known .null := trivial
  have hstmts := Stmt.agrees_evalList hcx hs p.stmts hnull hp
  obtain ⟨hsame, hends⟩ := hstmts.settled m hm
  constructor
  · unfold Program.supervisedRun Program.run Run.finish Program.eval
    rw [hsame]
  · rw [Program.run, Run.finish_machine, Program.eval]
    generalize Run.settled (Stmt.evalList (l.context m.depth) s p.stmts .null) m = x at hends ⊢
    cases hends with
    | ok _ hm | error _ hm => exact hm

end Calls

/-! ### Sessions -/

namespace Session

variable {known : Literal → Prop} {watch : Function → Scope → Run Value → Run Value}

/-- A session in a scope that is inside no other, which binds functions from known literals only. -/
structure Knows (known : Literal → Prop) (s : Session) : Prop where
  machine : s.machine.Knows known
  scope : s.scope.chain.length = 1

/-- A new session. -/
lemma knows_start (l : Limits) : (start l).Knows known := by
  refine ⟨⟨fun i _ b hb => ?_, fun _ _ => trivial⟩, rfl⟩
  have hframe : (start l).machine.frame i = [] :=
    (Machine.frame_enclose {} ⟨0, []⟩ i).trans (Machine.frame_of_size_le (Nat.zero_le i))
  rw [hframe] at hb
  cases hb

/-- The literals of one line are among those of all lines. -/
lemma mem_literals {lines : List String} {line : String} (hline : line ∈ lines) {name : String}
    {p : Program} (hp : (Source.mk name (Text.trim line)).parse.accepted = .ok p) {lit : Literal}
    (hlit : lit ∈ p.literals) : lit ∈ literals lines := by
  refine List.mem_flatMap.2 ⟨line, hline, ?_⟩
  rw [Source.accepted_congr hp ""]
  exact hlit

/-- A supervised session does the same with a line. -/
lemma evalBy_supervisedRun {lines : List String} (htrusts : Trusts (· ∈ literals lines) watch)
    {s : Session} (hs : s.Knows (· ∈ literals lines)) {line : String} (hline : line ∈ lines) :
    s.evalBy (Program.supervisedRun watch) line = s.eval line ∧
      (s.eval line).2.Knows (· ∈ literals lines) := by
  rw [← evalBy_run]
  unfold evalBy
  dsimp only
  split
  · exact ⟨rfl, hs⟩
  · split
    · exact ⟨rfl, hs⟩
    · split
      · exact ⟨rfl, hs.machine, hs.scope⟩
      · next p hp =>
        obtain ⟨hsame, hm⟩ := Program.supervisedRun_eq htrusts s.limits hs.scope
          (fun lit hlit => mem_literals hline hp hlit) hs.machine
        rw [hsame]
        exact ⟨rfl, hm.congr rfl, hs.scope⟩

/-- A supervised session does the same with some of the lines. -/
lemma evalEachBy_supervisedRun {lines : List String}
    (htrusts : Trusts (· ∈ literals lines) watch) {s : Session}
    (hs : s.Knows (· ∈ literals lines)) {pieces : List String} (hpieces : pieces ⊆ lines) :
    s.evalEachBy (Program.supervisedRun watch) pieces = s.evalEach pieces ∧
      (s.evalEach pieces).2.Knows (· ∈ literals lines) := by
  induction pieces generalizing s with
  | nil => exact ⟨rfl, hs⟩
  | cons piece pieces ih =>
    obtain ⟨hpiece, hpieces⟩ := List.cons_subset.1 hpieces
    obtain ⟨hsame, hafter⟩ := evalBy_supervisedRun htrusts hs hpiece
    obtain ⟨hothers, hend⟩ := ih hafter hpieces
    rw [evalEachBy, evalEach, hsame, hothers]
    exact ⟨rfl, hend⟩

/-- Scopes are as deep as the text says.

Let a supervisor be asked in a new session whenever the body of a function is about to run in the
scope of a call.  If it lets the body run whenever the function is made from a literal in one of the
lines, in a scope whose chain is as long as the literal is deep, and the chain of the call is one
frame longer and no longer than expressions may be nested and one, then nothing is changed, whatever
it does otherwise, whatever the limits are and however the lines call and store functions.  So every
call is of this kind.  In the end all functions that are bound are of this kind too, and the scope
of the session stands in no other. -/
theorem chains_as_deep_as_text (l : Limits) (lines : List String)
    (watch : Function → Scope → Run Value → Run Value)
    (hwatch : ∀ f s r, (∃ lit ∈ literals lines, f.MadeFrom lit ∧
      s.chain.length = lit.depth + 1 ∧ s.chain.length ≤ maxNesting + 1) → watch f s r = r) :
    (start l).evalEachBy (Program.supervisedRun watch) lines = (start l).evalEach lines ∧
    ((start l).evalEach lines).2.scope.chain.length = 1 ∧
    ∀ i, ∀ b ∈ ((start l).evalEach lines).2.machine.frame i, ∀ f, b.2 = .function f →
      ∃ lit ∈ literals lines, f.MadeFrom lit ∧ f.scope.chain.length ≤ maxNesting := by
  have hdepth := within_literals lines
  have htrusts : Trusts (· ∈ literals lines) watch := by
    rintro f s r ⟨lit, hlit, hmade, hchain⟩
    have hshort : s.chain.length ≤ maxNesting + 1 :=
      hchain ▸ Nat.succ_le_succ (hdepth lit hlit)
    exact hwatch f s r ⟨lit, hlit, hmade, hchain, hshort⟩
  obtain ⟨hsame, hend⟩ := evalEachBy_supervisedRun htrusts (knows_start l) (List.Subset.refl lines)
  refine ⟨hsame, hend.scope, fun i b hb f hf => ?_⟩
  have hknown := hend.machine.bound i trivial b hb
  rw [hf] at hknown
  obtain ⟨lit, hlit, hmade, -⟩ := hknown
  exact ⟨lit, hlit, hmade, hmade.depth ▸ hdepth lit hlit⟩

/-- A function makes a function, which is called on a later line. Its scope is three frames deep: a
supervisor that refuses deeper ones changes nothing, and one that refuses these does. -/
theorem chains_as_deep_as_text_closure :
    let lines := ["fanya nje = unda(x) \x7b rudisha unda(y) \x7b x + y \x7d \x7d",
      "fanya ndani = nje(1)", "ndani(2)"]
    let refusing (n : Nat) (_ : Function) (s : Scope) (r : Run Value) : Run Value :=
      if s.chain.length ≤ n then r else throw .recursionLimit
    let supervised (n : Nat) :=
      (start {}).evalEachBy (Program.supervisedRun (refusing n)) lines
    (∀ f s r, (∃ lit ∈ literals lines, f.MadeFrom lit ∧ s.chain.length = lit.depth + 1 ∧
      s.chain.length ≤ maxNesting + 1) → refusing 3 f s r = r) ∧
    supervised 3 = (start {}).evalEach lines ∧
    (supervised 2).1.map Outcome.error? = [none, none, some .recursionLimit] := by
  intro lines refusing supervised
  have hdepths : (literals lines).map (·.depth) = [1, 2] := by decide +kernel
  have hwatch : ∀ f s r, (∃ lit ∈ literals lines, f.MadeFrom lit ∧
      s.chain.length = lit.depth + 1 ∧ s.chain.length ≤ maxNesting + 1) → refusing 3 f s r = r := by
    rintro f s r ⟨lit, hlit, -, hchain, -⟩
    have hmem : lit.depth ∈ [1, 2] := hdepths ▸ List.mem_map_of_mem hlit
    have hle : lit.depth ≤ 2 := (by decide : ∀ n ∈ [1, 2], n ≤ 2) _ hmem
    exact if_pos (hchain ▸ Nat.succ_le_succ hle)
  exact ⟨hwatch, (chains_as_deep_as_text {} lines (refusing 3) hwatch).1, by decide +kernel⟩

end Session

end Lugha
