import Lugha.Proofs.Kinship
import Lugha.Proofs.Spans

/-!
# Places do not matter

Trees carry the places of the text they were read from, and so do the functions that are made of
them.  Evaluation never looks at a place.  Two programs that are equal when their spans are
forgotten are run in step, on machines that are kin: the bodies of the functions that they bind are
equal when their spans are forgotten.  The second machine may have printed other lines before.
-/

namespace Lugha

/-! ### Trees -/

/-- Blocks that are equal when their spans are forgotten. -/
def Block.Twin (b b' : Block) : Prop := b.mapSpans .forget = b'.mapSpans .forget

/-- Names that are equal when their spans are forgotten. -/
lemma Ident.name_eq_of_forget {i i' : Ident} (h : i.mapSpans .forget = i'.mapSpans .forget) :
    i'.name = i.name :=
  (congrArg Ident.name h).symm

/-- Lists of names that are equal when their spans are forgotten. -/
lemma Ident.map_name_of_forget {is is' : List Ident}
    (h : is.map (·.mapSpans .forget) = is'.map (·.mapSpans .forget)) :
    is'.map (·.name) = is.map (·.name) := by
  simpa [Function.comp_def] using (congrArg (List.map Ident.name) h).symm

/-- The names of functions that are equal when their spans are forgotten. -/
lemma Ident.optionMap_name_of_forget {i i' : Option Ident}
    (h : i.map (·.mapSpans .forget) = i'.map (·.mapSpans .forget)) :
    i'.map (·.name) = i.map (·.name) := by
  simpa [Function.comp_def] using (congrArg (Option.map Ident.name) h).symm

/-- A declared name is kept when spans are forgotten. -/
lemma Stmt.declared?_mapSpans (stmt : Stmt) :
    (stmt.mapSpans .forget).declared? = stmt.declared?.map (·.mapSpans .forget) := by
  cases stmt with
  | expr value => cases value <;> simp [Stmt.mapSpans, Expr.mapSpans, Stmt.declared?]
  | _ => rfl

mutual

/-- Expressions that are equal when their spans are forgotten are alike. -/
lemma Expr.like_of_forget : ∀ (e e' : Expr), e.mapSpans .forget = e'.mapSpans .forget →
    e.Like Block.Twin e'
  | .number .., e', h | .text .., e', h | .boolean .., e', h | .null .., e', h
  | .name .., e', h => by
    rw [Expr.Like]
    cases e' <;> simp [Expr.mapSpans] at h
    simp [Expr.unwrapped, h]
  | .call _ callee args, e', h => by
    rw [Expr.Like]
    cases e' with
    | call span callee' args' =>
      simp only [Expr.mapSpans, Expr.call.injEq] at h
      exact ⟨span, callee', args', rfl, callee.like_of_forget callee' h.2.1,
        Expr.likeList_of_forget args args' h.2.2⟩
    | _ => simp [Expr.mapSpans] at h
  | .binary _ op left right, e', h => by
    rw [Expr.Like]
    cases e' with
    | binary span op' left' right' =>
      simp only [Expr.mapSpans, Expr.binary.injEq] at h
      obtain ⟨-, rfl, hleft, hright⟩ := h
      exact ⟨span, left', right', rfl, left.like_of_forget left' hleft,
        right.like_of_forget right' hright⟩
    | _ => simp [Expr.mapSpans] at h
  | .unary _ op operand, e', h => by
    rw [Expr.Like]
    cases e' with
    | unary span op' operand' =>
      simp only [Expr.mapSpans, Expr.unary.injEq] at h
      obtain ⟨-, rfl, hoperand⟩ := h
      exact ⟨span, operand', rfl, operand.like_of_forget operand' hoperand⟩
    | _ => simp [Expr.mapSpans] at h
  | .conditional branches, e', h => by
    rw [Expr.Like]
    cases e' with
    | conditional branches' =>
      simp only [Expr.mapSpans, Expr.conditional.injEq] at h
      exact ⟨branches', rfl, branches.like_of_forget branches' h⟩
    | _ => simp [Expr.mapSpans] at h
  | .loop _ condition body, e', h => by
    rw [Expr.Like]
    cases e' with
    | loop span condition' body' =>
      simp only [Expr.mapSpans, Expr.loop.injEq] at h
      exact ⟨span, condition', body', rfl, condition.like_of_forget condition' h.2.1,
        body.like_of_forget body' h.2.2⟩
    | _ => simp [Expr.mapSpans] at h
  | .function _ title params body, e', h => by
    rw [Expr.Like]
    cases e' with
    | function span title' params' body' =>
      simp only [Expr.mapSpans, Expr.function.injEq] at h
      obtain ⟨-, htitle, hparams, hbody⟩ := h
      exact ⟨span, title', params', body', rfl, Ident.optionMap_name_of_forget htitle,
        Ident.map_name_of_forget hparams, body.like_of_forget body' hbody, hbody⟩
    | _ => simp [Expr.mapSpans] at h
  | .paren _ inner, e', h => by
    rw [Expr.Like]
    cases e' with
    | paren span inner' =>
      simp only [Expr.mapSpans, Expr.paren.injEq] at h
      have hwrapped : inner'.unwrapped = (Expr.paren span inner').unwrapped := by
        rw [Expr.unwrapped]
      exact (inner.like_of_forget inner' h.2).congr hwrapped
    | _ => simp [Expr.mapSpans] at h

/-- Arguments that are equal when their spans are forgotten are alike. -/
lemma Expr.likeList_of_forget : ∀ (es es' : List Expr),
    Expr.mapSpansList .forget es = Expr.mapSpansList .forget es' →
      Expr.LikeList Block.Twin es es'
  | [], es', h => by
    rw [Expr.LikeList]
    cases es' with
    | nil => rfl
    | cons => simp [Expr.mapSpansList] at h
  | e :: es, es', h => by
    rw [Expr.LikeList]
    cases es' with
    | nil => simp [Expr.mapSpansList] at h
    | cons e' es' =>
      simp only [Expr.mapSpansList, List.cons.injEq] at h
      exact ⟨e', es', rfl, e.like_of_forget e' h.1, Expr.likeList_of_forget es es' h.2⟩

/-- Conditionals that are equal when their spans are forgotten are alike. -/
lemma Conditional.like_of_forget : ∀ (k k' : Conditional),
    k.mapSpans .forget = k'.mapSpans .forget → k.Like Block.Twin k'
  | .ifThen _ condition yes, k', h => by
    rw [Conditional.Like]
    cases k' with
    | ifThen span condition' yes' =>
      simp only [Conditional.mapSpans, Conditional.ifThen.injEq] at h
      exact ⟨span, condition', yes', rfl, condition.like_of_forget condition' h.2.1,
        yes.like_of_forget yes' h.2.2⟩
    | _ => simp [Conditional.mapSpans] at h
  | .ifElse _ condition yes no, k', h => by
    rw [Conditional.Like]
    cases k' with
    | ifElse span condition' yes' no' =>
      simp only [Conditional.mapSpans, Conditional.ifElse.injEq] at h
      obtain ⟨-, hcondition, hyes, hno⟩ := h
      exact ⟨span, condition', yes', no', rfl, condition.like_of_forget condition' hcondition,
        yes.like_of_forget yes' hyes, no.like_of_forget no' hno⟩
    | _ => simp [Conditional.mapSpans] at h
  | .elseIf _ condition yes next, k', h => by
    rw [Conditional.Like]
    cases k' with
    | elseIf span condition' yes' next' =>
      simp only [Conditional.mapSpans, Conditional.elseIf.injEq] at h
      obtain ⟨-, hcondition, hyes, hnext⟩ := h
      exact ⟨span, condition', yes', next', rfl, condition.like_of_forget condition' hcondition,
        yes.like_of_forget yes' hyes, next.like_of_forget next' hnext⟩
    | _ => simp [Conditional.mapSpans] at h

/-- Blocks that are equal when their spans are forgotten are alike. -/
lemma Block.like_of_forget : ∀ (b b' : Block), b.mapSpans .forget = b'.mapSpans .forget →
    b.Like Block.Twin b'
  | .mk _ stmts, .mk span stmts', h => by
    simp only [Block.mapSpans, Block.mk.injEq] at h
    rw [Block.Like]
    exact ⟨span, stmts', rfl, Stmt.likeList_of_forget stmts stmts' h.2⟩

/-- Statements that are equal when their spans are forgotten are alike, one by one. -/
lemma Stmt.likeList_of_forget : ∀ (stmts stmts' : List Stmt),
    Stmt.mapSpansList .forget stmts = Stmt.mapSpansList .forget stmts' →
      Stmt.LikeList Block.Twin stmts stmts'
  | [], stmts', h => by
    rw [Stmt.LikeList]
    cases stmts' with
    | nil => rfl
    | cons => simp [Stmt.mapSpansList] at h
  | stmt :: stmts, stmts', h => by
    rw [Stmt.LikeList]
    cases stmts' with
    | nil => simp [Stmt.mapSpansList] at h
    | cons stmt' stmts' =>
      simp only [Stmt.mapSpansList, List.cons.injEq] at h
      exact ⟨stmt', stmts', rfl, stmt.like_of_forget stmt' h.1,
        Stmt.likeList_of_forget stmts stmts' h.2⟩

/-- Statements that are equal when their spans are forgotten are alike. -/
lemma Stmt.like_of_forget : ∀ (stmt stmt' : Stmt),
    stmt.mapSpans .forget = stmt'.mapSpans .forget → stmt.Like Block.Twin stmt'
  | .bind _ name value, stmt', h => by
    rw [Stmt.Like]
    cases stmt' with
    | bind span name' value' =>
      simp only [Stmt.mapSpans, Stmt.bind.injEq] at h
      exact ⟨span, name', value', rfl, Ident.name_eq_of_forget h.2.1,
        value.like_of_forget value' h.2.2⟩
    | _ => simp [Stmt.mapSpans] at h
  | .assign _ name value, stmt', h => by
    rw [Stmt.Like]
    cases stmt' with
    | assign span name' value' =>
      simp only [Stmt.mapSpans, Stmt.assign.injEq] at h
      exact ⟨span, name', value', rfl, Ident.name_eq_of_forget h.2.1,
        value.like_of_forget value' h.2.2⟩
    | _ => simp [Stmt.mapSpans] at h
  | .returnValue _ value, stmt', h => by
    rw [Stmt.Like]
    cases stmt' with
    | returnValue span value' =>
      simp only [Stmt.mapSpans, Stmt.returnValue.injEq] at h
      exact ⟨span, value', rfl, value.like_of_forget value' h.2⟩
    | _ => simp [Stmt.mapSpans] at h
  | .returnNothing _, stmt', h | .breakLoop _, stmt', h | .continueLoop _, stmt', h => by
    rw [Stmt.Like]
    cases stmt' <;> simp [Stmt.mapSpans] at h
    exact ⟨_, rfl⟩
  | .expr value, stmt', h => by
    rw [Stmt.Like]
    have hdeclared := congrArg (fun s => s.declared?.map Ident.name) h
    simp only [Stmt.declared?_mapSpans, Option.map_map] at hdeclared
    cases stmt' with
    | expr value' =>
      simp only [Stmt.mapSpans, Stmt.expr.injEq] at h
      exact ⟨value', rfl, value.like_of_forget value' h, hdeclared.symm⟩
    | _ => simp [Stmt.mapSpans] at h

end

/-! ### Values and machines -/

/-- Values that are equal but for the spans in the bodies of functions. -/
def Value.Twin : Value → Value → Prop := Value.Kin Block.Twin

/-- Values that differ in places look the same. -/
lemma Value.Twin.alike {v v' : Value} (h : v.Twin v') : v.Alike v' := Value.Kin.alike h

/-- Machines that bind the same but for spans. The second one has printed some lines before. -/
def Machine.Twin (printed : Array String) : Machine → Machine → Prop :=
  Machine.Kin Block.Twin printed

/-- Every machine is its own twin. -/
lemma Machine.Twin.refl (m : Machine) : m.Twin #[] m :=
  Machine.Kin.refl (fun b => (rfl : b.Twin b)) m

/-! ### Runs in step -/

/-- The simulation of runs that differ in places, when the second one has printed some lines
before. -/
def Simulation.placeless (printed : Array String) : Simulation :=
  .kin Block.Twin printed

/-- Runs that differ in places follow the laws of simulations. -/
lemma Simulation.placeless.lawful (printed : Array String) : (placeless printed).Lawful :=
  kin.lawful (Block.like_of_forget _ _) printed

end Lugha
