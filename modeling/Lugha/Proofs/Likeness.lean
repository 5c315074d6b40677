import Lugha.Eval
import Mathlib.Tactic.Common

/-!
# Trees that mean the same

Two trees are alike if they differ only in their spans and in parentheses around
expressions.  Parentheses are looked through by `Expr.unwrapped`, so likeness is
defined by recursion on the first tree, with the second one unwrapped wherever an
expression stands.

The bodies of functions become parts of values.  Likeness takes a further relation
that has to hold between the bodies of corresponding function literals; equality there
makes the functions that both trees build equal.
-/

namespace Lugha

/-- An expression without the parentheses around it. -/
def Expr.unwrapped : Expr → Expr
  | .paren _ inner => inner.unwrapped
  | e => e

/-- Parentheses do not change what an expression does. -/
lemma Expr.eval_unwrapped (cx : Context) (s : Scope) (e : Expr) :
    e.unwrapped.eval cx s = e.eval cx s := by
  fun_induction Expr.unwrapped e with
  | case1 span inner ih => rw [ih, Expr.eval]
  | case2 => rfl

/-- Parentheses do not change whether an expression is a loop. -/
lemma Expr.isLoop_unwrapped (e : Expr) : e.unwrapped.isLoop = e.isLoop := by
  fun_induction Expr.unwrapped e with
  | case1 span inner ih => rw [ih, Expr.isLoop]
  | case2 => rfl

variable (P : Block → Block → Prop)

mutual

/-- Whether two expressions are alike. -/
def Expr.Like : Expr → Expr → Prop
  | .number _ x, e => ∃ span, e.unwrapped = .number span x
  | .text _ t, e => ∃ span, e.unwrapped = .text span t
  | .boolean _ b, e => ∃ span, e.unwrapped = .boolean span b
  | .null _, e => ∃ span, e.unwrapped = .null span
  | .name _ n, e => ∃ span, e.unwrapped = .name span n
  | .call _ callee args, e =>
    ∃ span callee' args', e.unwrapped = .call span callee' args' ∧
      Expr.Like callee callee' ∧ Expr.LikeList args args'
  | .binary _ op left right, e =>
    ∃ span left' right', e.unwrapped = .binary span op left' right' ∧
      Expr.Like left left' ∧ Expr.Like right right'
  | .unary _ op operand, e =>
    ∃ span operand', e.unwrapped = .unary span op operand' ∧ Expr.Like operand operand'
  | .conditional branches, e =>
    ∃ branches', e.unwrapped = .conditional branches' ∧ Conditional.Like branches branches'
  | .loop _ condition body, e =>
    ∃ span condition' body', e.unwrapped = .loop span condition' body' ∧
      Expr.Like condition condition' ∧ Block.Like body body'
  | .function _ name params body, e =>
    ∃ span name' params' body', e.unwrapped = .function span name' params' body' ∧
      name'.map (·.name) = name.map (·.name) ∧ params'.map (·.name) = params.map (·.name) ∧
      Block.Like body body' ∧ P body body'
  | .paren _ inner, e => Expr.Like inner e

/-- Whether two lists of expressions are alike. -/
def Expr.LikeList : List Expr → List Expr → Prop
  | [], es => es = []
  | e :: es, es' => ∃ e' rest, es' = e' :: rest ∧ Expr.Like e e' ∧ Expr.LikeList es rest

/-- Whether two conditionals are alike. -/
def Conditional.Like : Conditional → Conditional → Prop
  | .ifThen _ condition yes, c =>
    ∃ span condition' yes', c = .ifThen span condition' yes' ∧
      Expr.Like condition condition' ∧ Block.Like yes yes'
  | .ifElse _ condition yes no, c =>
    ∃ span condition' yes' no', c = .ifElse span condition' yes' no' ∧
      Expr.Like condition condition' ∧ Block.Like yes yes' ∧ Block.Like no no'
  | .elseIf _ condition yes next, c =>
    ∃ span condition' yes' next', c = .elseIf span condition' yes' next' ∧
      Expr.Like condition condition' ∧ Block.Like yes yes' ∧ Conditional.Like next next'

/-- Whether two blocks are alike. -/
def Block.Like : Block → Block → Prop
  | .mk _ stmts, b => ∃ span stmts', b = .mk span stmts' ∧ Stmt.LikeList stmts stmts'

/-- Whether two lists of statements are alike. -/
def Stmt.LikeList : List Stmt → List Stmt → Prop
  | [], stmts => stmts = []
  | stmt :: stmts, stmts' =>
    ∃ stmt' rest, stmts' = stmt' :: rest ∧ Stmt.Like stmt stmt' ∧ Stmt.LikeList stmts rest

/-- Whether two statements are alike. A function that is declared by the one is declared
by the other, so no parentheses may stand around its literal. -/
def Stmt.Like : Stmt → Stmt → Prop
  | .bind _ name value, stmt =>
    ∃ span name' value', stmt = .bind span name' value' ∧ name'.name = name.name ∧
      Expr.Like value value'
  | .assign _ name value, stmt =>
    ∃ span name' value', stmt = .assign span name' value' ∧ name'.name = name.name ∧
      Expr.Like value value'
  | .returnValue _ value, stmt =>
    ∃ span value', stmt = .returnValue span value' ∧ Expr.Like value value'
  | .returnNothing _, stmt => ∃ span, stmt = .returnNothing span
  | .breakLoop _, stmt => ∃ span, stmt = .breakLoop span
  | .continueLoop _, stmt => ∃ span, stmt = .continueLoop span
  | .expr value, stmt =>
    ∃ value', stmt = .expr value' ∧ Expr.Like value value' ∧
      (Stmt.expr value').declared?.map (·.name) = (Stmt.expr value).declared?.map (·.name)

end

variable {P}

/-- Likeness looks through the parentheses around the second expression. -/
lemma Expr.Like.congr {e' e'' : Expr} (h : e'.unwrapped = e''.unwrapped) :
    ∀ {e : Expr}, e.Like P e' → e.Like P e''
  | .number .., he | .text .., he | .boolean .., he | .null .., he | .name .., he
  | .call .., he | .binary .., he | .unary .., he | .conditional .., he | .loop .., he
  | .function .., he => by
    rw [Expr.Like] at he ⊢
    rwa [← h]
  | .paren _ inner, he => by
    rw [Expr.Like] at he ⊢
    exact Expr.Like.congr h he

mutual

/-- Every expression is like itself. -/
lemma Expr.like_refl (hP : ∀ b, P b b) : ∀ e : Expr, e.Like P e
  | .number .. | .text .. | .boolean .. | .null .. | .name .. => by
    rw [Expr.Like]
    exact ⟨_, rfl⟩
  | .call _ callee args => by
    rw [Expr.Like]
    exact ⟨_, _, _, rfl, callee.like_refl hP, Expr.likeList_refl hP args⟩
  | .binary _ op left right => by
    rw [Expr.Like]
    exact ⟨_, _, _, rfl, left.like_refl hP, right.like_refl hP⟩
  | .unary _ op operand => by
    rw [Expr.Like]
    exact ⟨_, _, rfl, operand.like_refl hP⟩
  | .conditional branches => by
    rw [Expr.Like]
    exact ⟨_, rfl, branches.like_refl hP⟩
  | .loop _ condition body => by
    rw [Expr.Like]
    exact ⟨_, _, _, rfl, condition.like_refl hP, body.like_refl hP⟩
  | .function _ name params body => by
    rw [Expr.Like]
    exact ⟨_, _, _, _, rfl, rfl, rfl, body.like_refl hP, hP body⟩
  | .paren span inner => by
    have h : inner.unwrapped = (Expr.paren span inner).unwrapped := by rw [Expr.unwrapped]
    rw [Expr.Like]
    exact (inner.like_refl hP).congr h

/-- Every list of expressions is like itself. -/
lemma Expr.likeList_refl (hP : ∀ b, P b b) : ∀ es : List Expr, Expr.LikeList P es es
  | [] => by
    rw [Expr.LikeList]
  | e :: es => by
    rw [Expr.LikeList]
    exact ⟨_, _, rfl, e.like_refl hP, Expr.likeList_refl hP es⟩

/-- Every conditional is like itself. -/
lemma Conditional.like_refl (hP : ∀ b, P b b) : ∀ c : Conditional, c.Like P c
  | .ifThen _ condition yes => by
    rw [Conditional.Like]
    exact ⟨_, _, _, rfl, condition.like_refl hP, yes.like_refl hP⟩
  | .ifElse _ condition yes no => by
    rw [Conditional.Like]
    exact ⟨_, _, _, _, rfl, condition.like_refl hP, yes.like_refl hP, no.like_refl hP⟩
  | .elseIf _ condition yes next => by
    rw [Conditional.Like]
    exact ⟨_, _, _, _, rfl, condition.like_refl hP, yes.like_refl hP, next.like_refl hP⟩

/-- Every block is like itself. -/
lemma Block.like_refl (hP : ∀ b, P b b) : ∀ b : Block, b.Like P b
  | .mk _ stmts => by
    rw [Block.Like]
    exact ⟨_, _, rfl, Stmt.likeList_refl hP stmts⟩

/-- Every list of statements is like itself. -/
lemma Stmt.likeList_refl (hP : ∀ b, P b b) : ∀ stmts : List Stmt, Stmt.LikeList P stmts stmts
  | [] => by
    rw [Stmt.LikeList]
  | stmt :: stmts => by
    rw [Stmt.LikeList]
    exact ⟨_, _, rfl, stmt.like_refl hP, Stmt.likeList_refl hP stmts⟩

/-- Every statement is like itself. -/
lemma Stmt.like_refl (hP : ∀ b, P b b) : ∀ stmt : Stmt, stmt.Like P stmt
  | .bind _ name value | .assign _ name value => by
    rw [Stmt.Like]
    exact ⟨_, _, _, rfl, rfl, value.like_refl hP⟩
  | .returnValue _ value => by
    rw [Stmt.Like]
    exact ⟨_, _, rfl, value.like_refl hP⟩
  | .returnNothing _ | .breakLoop _ | .continueLoop _ => by
    rw [Stmt.Like]
    exact ⟨_, rfl⟩
  | .expr value => by
    rw [Stmt.Like]
    exact ⟨_, rfl, value.like_refl hP, rfl⟩

end

end Lugha
