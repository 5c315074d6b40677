import Lugha.Proofs.Kinship

/-!
# Parentheses do not matter

Parentheses group the parts of an expression and do nothing else.  Here parentheses are put around
any expressions of a program, those in the bodies of functions included.  A loop is still a loop in
parentheses, wherever loops are treated apart, and a signal leaves parentheses as it came.  The one
place where parentheses are seen is around a function that is declared by a statement, which would
not be declared any more.

The functions that both programs bind differ in the parentheses of their bodies, so the two
programs are run in step on machines that are kin in this sense.
-/

namespace Lugha

/-! ### Putting parentheses -/

mutual

/-- The second expression is the first one with parentheses around some of its expressions. -/
inductive Expr.Wraps : Expr → Expr → Prop
  | same (e : Expr) : Expr.Wraps e e
  | wrap {e e' : Expr} (span : Span) (h : Expr.Wraps e e') : Expr.Wraps e (.paren span e')
  | call {span : Span} {callee callee' : Expr} {args args' : List Expr}
      (hcallee : Expr.Wraps callee callee') (hargs : Expr.WrapsList args args') :
      Expr.Wraps (.call span callee args) (.call span callee' args')
  | binary {span : Span} {op : BinaryOp} {left left' right right' : Expr}
      (hleft : Expr.Wraps left left') (hright : Expr.Wraps right right') :
      Expr.Wraps (.binary span op left right) (.binary span op left' right')
  | unary {span : Span} {op : UnaryOp} {operand operand' : Expr} (h : Expr.Wraps operand operand') :
      Expr.Wraps (.unary span op operand) (.unary span op operand')
  | conditional {branches branches' : Conditional} (h : Conditional.Wraps branches branches') :
      Expr.Wraps (.conditional branches) (.conditional branches')
  | loop {span : Span} {condition condition' : Expr} {body body' : Block}
      (hcondition : Expr.Wraps condition condition') (hbody : Block.Wraps body body') :
      Expr.Wraps (.loop span condition body) (.loop span condition' body')
  | function {span : Span} {name : Option Ident} {params : List Ident} {body body' : Block}
      (hbody : Block.Wraps body body') :
      Expr.Wraps (.function span name params body) (.function span name params body')
  | paren {span : Span} {inner inner' : Expr} (h : Expr.Wraps inner inner') :
      Expr.Wraps (.paren span inner) (.paren span inner')

/-- The same for arguments, one by one. -/
inductive Expr.WrapsList : List Expr → List Expr → Prop
  | nil : Expr.WrapsList [] []
  | cons {e e' : Expr} {es es' : List Expr} (h : Expr.Wraps e e') (hrest : Expr.WrapsList es es') :
      Expr.WrapsList (e :: es) (e' :: es')

/-- The same for a conditional. -/
inductive Conditional.Wraps : Conditional → Conditional → Prop
  | ifThen {span : Span} {condition condition' : Expr} {yes yes' : Block}
      (hcondition : Expr.Wraps condition condition') (hyes : Block.Wraps yes yes') :
      Conditional.Wraps (.ifThen span condition yes) (.ifThen span condition' yes')
  | ifElse {span : Span} {condition condition' : Expr} {yes yes' no no' : Block}
      (hcondition : Expr.Wraps condition condition') (hyes : Block.Wraps yes yes')
      (hno : Block.Wraps no no') :
      Conditional.Wraps (.ifElse span condition yes no) (.ifElse span condition' yes' no')
  | elseIf {span : Span} {condition condition' : Expr} {yes yes' : Block}
      {next next' : Conditional} (hcondition : Expr.Wraps condition condition')
      (hyes : Block.Wraps yes yes') (hnext : Conditional.Wraps next next') :
      Conditional.Wraps (.elseIf span condition yes next) (.elseIf span condition' yes' next')

/-- The same for a block. -/
inductive Block.Wraps : Block → Block → Prop
  | mk {span : Span} {stmts stmts' : List Stmt} (h : Stmt.WrapsList stmts stmts') :
      Block.Wraps (.mk span stmts) (.mk span stmts')

/-- The same for statements, one by one. -/
inductive Stmt.WrapsList : List Stmt → List Stmt → Prop
  | nil : Stmt.WrapsList [] []
  | cons {stmt stmt' : Stmt} {stmts stmts' : List Stmt} (h : Stmt.Wraps stmt stmt')
      (hrest : Stmt.WrapsList stmts stmts') : Stmt.WrapsList (stmt :: stmts) (stmt' :: stmts')

/-- The same for a statement. A function that it declares is still declared, so there are no
parentheses around it. -/
inductive Stmt.Wraps : Stmt → Stmt → Prop
  | same (stmt : Stmt) : Stmt.Wraps stmt stmt
  | bind {span : Span} {name : Ident} {value value' : Expr} (h : Expr.Wraps value value') :
      Stmt.Wraps (.bind span name value) (.bind span name value')
  | assign {span : Span} {name : Ident} {value value' : Expr} (h : Expr.Wraps value value') :
      Stmt.Wraps (.assign span name value) (.assign span name value')
  | returnValue {span : Span} {value value' : Expr} (h : Expr.Wraps value value') :
      Stmt.Wraps (.returnValue span value) (.returnValue span value')
  | expr {value value' : Expr} (h : Expr.Wraps value value')
      (hdeclared : (Stmt.expr value').declared? = (Stmt.expr value).declared?) :
      Stmt.Wraps (.expr value) (.expr value')

end

/-- The second program is the first one with parentheses around some of its expressions. -/
def Program.Wraps (p p' : Program) : Prop := Stmt.WrapsList p.stmts p'.stmts

/-- No parentheses at all. -/
lemma Stmt.wrapsList_refl (stmts : List Stmt) : Stmt.WrapsList stmts stmts := by
  induction stmts with
  | nil => exact .nil
  | cons stmt stmts ih => exact .cons (.same stmt) ih

/-- No parentheses at all. -/
lemma Block.wraps_refl (b : Block) : b.Wraps b := by
  cases b with
  | mk span stmts => exact .mk (Stmt.wrapsList_refl stmts)

mutual

/-- An expression is like itself with further parentheses. -/
lemma Expr.Wraps.like : ∀ {e e' : Expr}, e.Wraps e' → e.Like Block.Wraps e'
  | e, _, .same _ => e.like_refl Block.wraps_refl
  | e, .paren span e', .wrap _ h => by
    have hunwrapped : e'.unwrapped = (Expr.paren span e').unwrapped := by rw [Expr.unwrapped]
    exact h.like.congr hunwrapped
  | _, _, .call hcallee hargs => by
    rw [Expr.Like]
    exact ⟨_, _, _, rfl, hcallee.like, hargs.like⟩
  | _, _, .binary hleft hright => by
    rw [Expr.Like]
    exact ⟨_, _, _, rfl, hleft.like, hright.like⟩
  | _, _, .unary h => by
    rw [Expr.Like]
    exact ⟨_, _, rfl, h.like⟩
  | _, _, .conditional h => by
    rw [Expr.Like]
    exact ⟨_, rfl, h.like⟩
  | _, _, .loop hcondition hbody => by
    rw [Expr.Like]
    exact ⟨_, _, _, rfl, hcondition.like, hbody.like⟩
  | _, _, .function hbody => by
    rw [Expr.Like]
    exact ⟨_, _, _, _, rfl, rfl, rfl, hbody.like, hbody⟩
  | _, .paren span inner', .paren h => by
    have hunwrapped : inner'.unwrapped = (Expr.paren span inner').unwrapped := by
      rw [Expr.unwrapped]
    rw [Expr.Like]
    exact h.like.congr hunwrapped

/-- Arguments are like themselves with further parentheses. -/
lemma Expr.WrapsList.like : ∀ {es es' : List Expr},
    Expr.WrapsList es es' → Expr.LikeList Block.Wraps es es'
  | _, _, .nil => by
    rw [Expr.LikeList]
  | _, _, .cons h hrest => by
    rw [Expr.LikeList]
    exact ⟨_, _, rfl, h.like, hrest.like⟩

/-- A conditional is like itself with further parentheses. -/
lemma Conditional.Wraps.like : ∀ {k k' : Conditional}, k.Wraps k' → k.Like Block.Wraps k'
  | _, _, .ifThen hcondition hyes => by
    rw [Conditional.Like]
    exact ⟨_, _, _, rfl, hcondition.like, hyes.like⟩
  | _, _, .ifElse hcondition hyes hno => by
    rw [Conditional.Like]
    exact ⟨_, _, _, _, rfl, hcondition.like, hyes.like, hno.like⟩
  | _, _, .elseIf hcondition hyes hnext => by
    rw [Conditional.Like]
    exact ⟨_, _, _, _, rfl, hcondition.like, hyes.like, hnext.like⟩

/-- A block is like itself with further parentheses. -/
lemma Block.Wraps.like : ∀ {b b' : Block}, b.Wraps b' → b.Like Block.Wraps b'
  | _, _, .mk h => by
    rw [Block.Like]
    exact ⟨_, _, rfl, h.like⟩

/-- Statements are like themselves with further parentheses. -/
lemma Stmt.WrapsList.like : ∀ {stmts stmts' : List Stmt},
    Stmt.WrapsList stmts stmts' → Stmt.LikeList Block.Wraps stmts stmts'
  | _, _, .nil => by
    rw [Stmt.LikeList]
  | _, _, .cons h hrest => by
    rw [Stmt.LikeList]
    exact ⟨_, _, rfl, h.like, hrest.like⟩

/-- A statement is like itself with further parentheses. -/
lemma Stmt.Wraps.like : ∀ {stmt stmt' : Stmt}, stmt.Wraps stmt' → stmt.Like Block.Wraps stmt'
  | stmt, _, .same _ => stmt.like_refl Block.wraps_refl
  | _, _, .bind h | _, _, .assign h => by
    rw [Stmt.Like]
    exact ⟨_, _, _, rfl, rfl, h.like⟩
  | _, _, .returnValue h => by
    rw [Stmt.Like]
    exact ⟨_, _, rfl, h.like⟩
  | _, _, .expr h hdeclared => by
    rw [Stmt.Like]
    exact ⟨_, rfl, h.like, congrArg (Option.map Ident.name) hdeclared⟩

end

/-! ### Running in step -/

/-- Parentheses do not matter.

Let parentheses be put around any expressions of a program, other than a function that a statement
declares, and let both programs be run under the same limits, on machines that bind the same but
for such parentheses in the bodies of functions. Then both end with the same error, or with values
that are equal but for parentheses in the bodies of functions and that have the same type and are
printed the same. Both have printed the same lines and reported the same events, and bind the same
names to values that are equal but for such parentheses. -/
theorem Program.run_wrapped (l : Limits) (s : Scope) {p p' : Program} (hp : p.Wraps p')
    {m m' : Machine} (hm : m.Kin Block.Wraps #[] m') :
    let after := p.run l s m
    let after' := p'.run l s m'
    (∀ e, after'.1 = .error e ↔ after.1 = .error e) ∧ after.1.Kin Block.Wraps after'.1 ∧
      after'.1.typeName = after.1.typeName ∧ after'.1.shown = after.1.shown ∧
      after'.2.output = after.2.output ∧ after'.2.logs = after.2.logs ∧
      after.2.Kin Block.Wraps #[] after'.2 := by
  intro after after'
  have hS := Simulation.kin.steady Block.Wraps.like #[]
  obtain ⟨hvalue, hmachine⟩ := Program.run_matches hS l (rfl : s = s) hp.like hm
  refine ⟨fun e => ?_, hvalue, hvalue.alike.typeName_eq, hvalue.alike.shown_eq, ?_, hmachine.logs,
    hmachine⟩
  · exact hvalue.alike.eq_error_iff
  · simpa using hmachine.output

/-- Parentheses around loops that are left early: one is an operand in a function, the other a
statement. The function is declared, so there are parentheses in its body only. -/
theorem Program.run_wrapped_loops :
    let paren : Expr → Expr := .paren .synthetic
    let name (n : String) : Expr := .name .synthetic n
    let loop (condition : Expr) : Expr :=
      .loop .synthetic condition (.mk .synthetic [.breakLoop .synthetic])
    let bare := loop (.boolean .synthetic true)
    let wrapped := paren (loop (paren (.boolean .synthetic true)))
    let program (operand argument stmt : Expr) : Program :=
      ⟨[.expr (.function .synthetic (some ⟨"f", .synthetic⟩) []
          (.mk .synthetic [.returnValue .synthetic (.unary .synthetic .invert operand)])),
        .expr stmt,
        .expr (.call .synthetic (name "andika") [argument])], .synthetic⟩
    let call : Expr := .call .synthetic (name "f") []
    let p := program bare call bare
    let p' := program wrapped (paren (paren call)) wrapped
    let m : Machine := { frames := #[[]] }
    let after := p.run ⟨1, 1⟩ ⟨0, []⟩ m
    let after' := p'.run ⟨1, 1⟩ ⟨0, []⟩ m
    p.Wraps p' ∧ after.2.output = #["kweli"] ∧ after'.2.output = after.2.output ∧
      (after.2.frame 0).names = ["f"] ∧ (after.2.frame 0).Kin Block.Wraps (after'.2.frame 0) := by
  intro paren name loop bare wrapped program call p p' m after after'
  have hloop : bare.Wraps wrapped := .wrap _ (.loop (.wrap _ (.same _)) (.mk (.cons (.same _) .nil)))
  have hfunction : Block.Wraps
      (.mk .synthetic [.returnValue .synthetic (.unary .synthetic .invert bare)])
      (.mk .synthetic [.returnValue .synthetic (.unary .synthetic .invert wrapped)]) :=
    .mk (.cons (.returnValue (.unary hloop)) .nil)
  have hargs : Expr.WrapsList [call] [paren (paren call)] :=
    .cons (.wrap _ (.wrap _ (.same _))) .nil
  have hp : p.Wraps p' :=
    .cons (.expr (.function hfunction) rfl) (.cons (.expr hloop rfl)
      (.cons (.expr (.call (.same _) hargs) rfl) .nil))
  obtain ⟨-, -, -, -, houtput, -, hmachine⟩ :=
    Program.run_wrapped ⟨1, 1⟩ ⟨0, []⟩ hp (.refl Block.wraps_refl m)
  exact ⟨hp, rfl, houtput, rfl, hmachine.frame 0⟩

end Lugha
