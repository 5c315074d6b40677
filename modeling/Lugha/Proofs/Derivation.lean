import Lugha.Proofs.Cursors
import Lugha.Proofs.Spelling

/-!
# Trees and the tokens they were read from

What the parser gives is derived from the tokens that it reads, also where something is wrong with
them.  `Expr.Derived` and its companions say from which tokens a tree was read, with which reports,
and how its span and those of its parts are placed among their tokens.  For the last the relation is
left open: the span may be that of the tokens, or merely one of a kind.

Nothing is passed over in silence.  A semicolon belongs to no statement.  Where a statement could
not be read, something was reported, and its tokens are passed over up to a place where reading can
resume.  At the top level a closing brace without an opening one is reported and passed over.  A
parameter whose name was given before is reported and is a parameter all the same.

An expression is derived with a number of levels that are left for it, and no operand binds more
loosely than its operator.  So the derivation also tells how deep a tree is nested, and how it holds
together.
-/

namespace Lugha

/-! ### Names and parameters -/

/-- A name that was read from one token and has its span. -/
def Ident.Located (i : Ident) (ts : List Token) : Prop :=
  ∃ t, ts = [t] ∧ t.kind = .name i.name ∧ i.span = t.span

/-- Two parentheses. -/
structure Parens (o c : Token) : Prop where
  opens : o.kind = .symbol .openParen
  closes : c.kind = .symbol .closeParen

/-- The words before the parameters of a function. -/
inductive Opening : Option Ident → List Token → Prop
  | unda {t : Token} (ht : t.kind = .keyword .unda) : Opening none [t]
  | kazi {name : Ident} {t : Token} {ts : List Token} (ht : t.kind = .keyword .kazi)
      (hname : name.Located ts) : Opening (some name) (t :: ts)

/-- What is reported of a parameter, if others were given before. -/
def Ident.repetition (given : List Ident) (param : Ident) : List Fault :=
  if given.any (·.name == param.name) then [⟨.duplicateParameter param.name, param.span⟩] else []

/-- Parameters with commas after them, if others were given before. After the last one the comma
may be missing. -/
inductive Parameters : List Ident → List Ident → List Token → List Fault → Prop
  | nil {given : List Ident} : Parameters given [] [] []
  | last {given : List Ident} {param : Ident} {ts : List Token} (h : param.Located ts) :
      Parameters given [param] ts (param.repetition given)
  | cons {given params : List Ident} {param : Ident} {ts us : List Token} {t : Token}
      {fs : List Fault} (h : param.Located ts) (ht : t.kind = .symbol .comma)
      (hrest : Parameters (given ++ [param]) params us fs) :
      Parameters given (param :: params) (ts ++ t :: us) (param.repetition given ++ fs)

/-! ### Trees -/

section

variable (placed : Span → List Token → Prop)

mutual

/-- An expression that was read with `n` levels left for it. -/
inductive Expr.Derived : Nat → Expr → List Token → List Fault → Prop
  | number {n : Nat} {span : Span} {x : Float} {t : Token} (ht : t.kind = .number x)
      (hspan : placed span [t]) : Expr.Derived (n + 1) (.number span x) [t] []
  | text {n : Nat} {span : Span} {s : String} {t : Token} (ht : t.kind = .text s)
      (hspan : placed span [t]) : Expr.Derived (n + 1) (.text span s) [t] []
  | boolean {n : Nat} {span : Span} {b : Bool} {t : Token}
      (ht : t.kind = .keyword (if b then .kweli else .sikweli)) (hspan : placed span [t]) :
      Expr.Derived (n + 1) (.boolean span b) [t] []
  | null {n : Nat} {span : Span} {t : Token} (ht : t.kind = .keyword .tupu)
      (hspan : placed span [t]) : Expr.Derived (n + 1) (.null span) [t] []
  | name {n : Nat} {span : Span} {s : String} {t : Token} (ht : t.kind = .name s)
      (hspan : placed span [t]) : Expr.Derived (n + 1) (.name span s) [t] []
  | call {n : Nat} {span : Span} {callee : Expr} {args : List Expr} {ts us : List Token}
      {o c : Token} {fs gs : List Fault} (htight : 6 ≤ callee.tightness)
      (hcallee : Expr.Derived (n + 1) callee ts fs) (hparens : Parens o c)
      (hargs : Expr.DerivedArgs n args us gs) (hspan : placed span (ts ++ o :: (us ++ [c]))) :
      Expr.Derived (n + 1) (.call span callee args) (ts ++ o :: (us ++ [c])) (fs ++ gs)
  | binary {n : Nat} {span : Span} {op : BinaryOp} {left right : Expr} {ts us : List Token}
      {t : Token} {fs gs : List Fault}
      (htight : op.tightness ≤ left.tightness ∧ op.tightness < right.tightness)
      (hleft : Expr.Derived n left ts fs) (ht : t.kind = .symbol op.symbol)
      (hright : Expr.Derived n right us gs) (hspan : placed span (ts ++ t :: us)) :
      Expr.Derived n (.binary span op left right) (ts ++ t :: us) (fs ++ gs)
  | unary {n : Nat} {span : Span} {op : UnaryOp} {operand : Expr} {ts : List Token} {t : Token}
      {fs : List Fault} (htight : 5 ≤ operand.tightness) (ht : t.kind = .symbol op.symbol)
      (hoperand : Expr.Derived n operand ts fs) (hspan : placed span (t :: ts)) :
      Expr.Derived (n + 1) (.unary span op operand) (t :: ts) fs
  | conditional {n : Nat} {branches : Conditional} {ts : List Token} {fs : List Fault}
      (hbranches : Conditional.Derived n branches ts fs) :
      Expr.Derived (n + 1) (.conditional branches) ts fs
  | loop {n : Nat} {span : Span} {condition : Expr} {body : Block} {ts us : List Token}
      {t o c : Token} {fs gs : List Fault} (ht : t.kind = .keyword .wakati) (hparens : Parens o c)
      (hcondition : Expr.Derived n condition ts fs) (hbody : Block.Derived n body us gs)
      (hspan : placed span (t :: o :: (ts ++ c :: us))) :
      Expr.Derived (n + 1) (.loop span condition body) (t :: o :: (ts ++ c :: us)) (fs ++ gs)
  | function {n : Nat} {span : Span} {name : Option Ident} {params : List Ident} {body : Block}
      {hs ts us : List Token} {o c : Token} {fs gs : List Fault} (hhead : Opening name hs)
      (hparens : Parens o c) (hparams : Parameters [] params ts fs)
      (hbody : Block.Derived n body us gs) (hspan : placed span (hs ++ o :: (ts ++ c :: us))) :
      Expr.Derived (n + 1) (.function span name params body) (hs ++ o :: (ts ++ c :: us))
        (fs ++ gs)
  | paren {n : Nat} {span : Span} {inner : Expr} {ts : List Token} {o c : Token} {fs : List Fault}
      (hparens : Parens o c) (hinner : Expr.Derived n inner ts fs)
      (hspan : placed span (o :: (ts ++ [c]))) :
      Expr.Derived (n + 1) (.paren span inner) (o :: (ts ++ [c])) fs

/-- Arguments with commas after them. After the last one the comma may be missing. -/
inductive Expr.DerivedArgs : Nat → List Expr → List Token → List Fault → Prop
  | nil {n : Nat} : Expr.DerivedArgs n [] [] []
  | last {n : Nat} {e : Expr} {ts : List Token} {fs : List Fault} (h : Expr.Derived n e ts fs) :
      Expr.DerivedArgs n [e] ts fs
  | cons {n : Nat} {e : Expr} {es : List Expr} {ts us : List Token} {t : Token}
      {fs gs : List Fault} (h : Expr.Derived n e ts fs) (ht : t.kind = .symbol .comma)
      (hrest : Expr.DerivedArgs n es us gs) :
      Expr.DerivedArgs n (e :: es) (ts ++ t :: us) (fs ++ gs)

/-- A conditional. -/
inductive Conditional.Derived : Nat → Conditional → List Token → List Fault → Prop
  | ifThen {n : Nat} {span : Span} {condition : Expr} {yes : Block} {ts us : List Token}
      {t o c : Token} {fs gs : List Fault} (ht : t.kind = .keyword .kama) (hparens : Parens o c)
      (hcondition : Expr.Derived n condition ts fs) (hyes : Block.Derived n yes us gs)
      (hspan : placed span (t :: o :: (ts ++ c :: us))) :
      Conditional.Derived n (.ifThen span condition yes) (t :: o :: (ts ++ c :: us)) (fs ++ gs)
  | ifElse {n : Nat} {span : Span} {condition : Expr} {yes no : Block} {ts us vs : List Token}
      {t o c u : Token} {fs gs hs : List Fault} (ht : t.kind = .keyword .kama)
      (hparens : Parens o c) (hcondition : Expr.Derived n condition ts fs)
      (hyes : Block.Derived n yes us gs) (hu : u.kind = .keyword .sivyo)
      (hno : Block.Derived n no vs hs)
      (hspan : placed span (t :: o :: (ts ++ c :: (us ++ u :: vs)))) :
      Conditional.Derived n (.ifElse span condition yes no)
        (t :: o :: (ts ++ c :: (us ++ u :: vs))) (fs ++ (gs ++ hs))
  | elseIf {n : Nat} {span : Span} {condition : Expr} {yes : Block} {next : Conditional}
      {ts us vs : List Token} {t o c u : Token} {fs gs hs : List Fault}
      (ht : t.kind = .keyword .kama) (hparens : Parens o c)
      (hcondition : Expr.Derived n condition ts fs) (hyes : Block.Derived n yes us gs)
      (hu : u.kind = .keyword .sivyo) (hnext : Conditional.Derived n next vs hs)
      (hspan : placed span (t :: o :: (ts ++ c :: (us ++ u :: vs)))) :
      Conditional.Derived n (.elseIf span condition yes next)
        (t :: o :: (ts ++ c :: (us ++ u :: vs))) (fs ++ (gs ++ hs))

/-- A block. -/
inductive Block.Derived : Nat → Block → List Token → List Fault → Prop
  | mk {n : Nat} {span : Span} {stmts : List Stmt} {ts : List Token} {t u : Token}
      {fs : List Fault} (ht : t.kind = .symbol .openBrace)
      (hstmts : Stmt.DerivedList false n stmts ts fs) (hu : u.kind = .symbol .closeBrace)
      (hspan : placed span (t :: (ts ++ [u]))) :
      Block.Derived n (.mk span stmts) (t :: (ts ++ [u])) fs

/-- Statements one after the other, and the tokens of those that could not be read.  Each statement
may be followed by a semicolon.  At the top level closing braces may stand between them. -/
inductive Stmt.DerivedList : Bool → Nat → List Stmt → List Token → List Fault → Prop
  | nil {top : Bool} {n : Nat} : Stmt.DerivedList top n [] [] []
  | plain {top : Bool} {n : Nat} {stmt : Stmt} {stmts : List Stmt} {ts us : List Token}
      {fs gs : List Fault} (h : Stmt.Derived n stmt ts fs)
      (hrest : Stmt.DerivedList top n stmts us gs) :
      Stmt.DerivedList top n (stmt :: stmts) (ts ++ us) (fs ++ gs)
  | semicolon {top : Bool} {n : Nat} {stmt : Stmt} {stmts : List Stmt} {ts us : List Token}
      {t : Token} {fs gs : List Fault} (h : Stmt.Derived n stmt ts fs)
      (ht : t.kind = .symbol .semicolon) (hrest : Stmt.DerivedList top n stmts us gs) :
      Stmt.DerivedList top n (stmt :: stmts) (ts ++ t :: us) (fs ++ gs)
  | failed {top : Bool} {n : Nat} {stmts : List Stmt} {ts us vs : List Token} {fs gs : List Fault}
      (hfs : fs ≠ []) (hskip : Cursor.Skipped us) (hrest : Stmt.DerivedList top n stmts vs gs) :
      Stmt.DerivedList top n stmts (ts ++ (us ++ vs)) (fs ++ gs)
  | brace {n : Nat} {stmts : List Stmt} {ts : List Token} {t : Token} {fs : List Fault}
      (ht : t.kind = .symbol .closeBrace) (hrest : Stmt.DerivedList true n stmts ts fs) :
      Stmt.DerivedList true n stmts (t :: ts) (⟨.strayBrace, t.span⟩ :: fs)

/-- A statement, without the semicolon after it. -/
inductive Stmt.Derived : Nat → Stmt → List Token → List Fault → Prop
  | bind {n : Nat} {span : Span} {name : Ident} {value : Expr} {ts us : List Token} {t u : Token}
      {fs : List Fault} (ht : t.kind = .keyword .fanya) (hname : name.Located ts)
      (hu : u.kind = .symbol .assign) (hvalue : Expr.Derived n value us fs)
      (hspan : placed span (t :: (ts ++ u :: us))) :
      Stmt.Derived n (.bind span name (value.named name)) (t :: (ts ++ u :: us)) fs
  | assign {n : Nat} {span : Span} {name : Ident} {value : Expr} {ts us : List Token} {u : Token}
      {fs : List Fault} (hname : name.Located ts) (hu : u.kind = .symbol .assign)
      (hvalue : Expr.Derived n value us fs) (hspan : placed span (ts ++ u :: us)) :
      Stmt.Derived n (.assign span name value) (ts ++ u :: us) fs
  | returnValue {n : Nat} {span : Span} {value : Expr} {ts : List Token} {t : Token}
      {fs : List Fault} (ht : t.kind = .keyword .rudisha) (hvalue : Expr.Derived n value ts fs)
      (hspan : placed span (t :: ts)) : Stmt.Derived n (.returnValue span value) (t :: ts) fs
  | returnNothing {n : Nat} {span : Span} {t : Token} (ht : t.kind = .keyword .rudisha)
      (hspan : placed span [t]) : Stmt.Derived n (.returnNothing span) [t] []
  | breakLoop {n : Nat} {span : Span} {t : Token} (ht : t.kind = .keyword .vunja)
      (hspan : placed span [t]) : Stmt.Derived n (.breakLoop span) [t] []
  | continueLoop {n : Nat} {span : Span} {t : Token} (ht : t.kind = .keyword .endelea)
      (hspan : placed span [t]) : Stmt.Derived n (.continueLoop span) [t] []
  | expr {n : Nat} {value : Expr} {ts : List Token} {fs : List Fault}
      (hvalue : Expr.Derived n value ts fs) : Stmt.Derived n (.expr value) ts fs

end

end

/-! ### Spans of trees -/

variable {placed : Span → List Token → Prop} {n : Nat} {ts : List Token} {fs : List Fault}

/-- A conditional is placed among its tokens. -/
lemma Conditional.Derived.placed_span {branches : Conditional}
    (h : branches.Derived placed n ts fs) : placed branches.span ts := by
  cases h <;> assumption

/-- A conditional has a token. -/
lemma Conditional.Derived.ne_nil {branches : Conditional} (h : branches.Derived placed n ts fs) :
    ts ≠ [] := by
  cases h <;> exact List.cons_ne_nil _ _

/-- A block is placed among its tokens. -/
lemma Block.Derived.placed_span {b : Block} (h : b.Derived placed n ts fs) : placed b.span ts := by
  cases h
  assumption

/-- An expression is placed among its tokens. -/
lemma Expr.Derived.placed_span {e : Expr} (h : e.Derived placed n ts fs) : placed e.span ts := by
  cases h with
  | conditional hbranches => exact hbranches.placed_span
  | _ => assumption

/-- An expression has a token. -/
lemma Expr.Derived.ne_nil {e : Expr} (h : e.Derived placed n ts fs) : ts ≠ [] := by
  cases h with
  | conditional hbranches => exact hbranches.ne_nil
  | _ => simp

/-- An expression that was read where it has to hold together to a degree. -/
structure Expr.DerivedAt (placed : Span → List Token → Prop) (k n : Nat) (e : Expr)
    (ts : List Token) (fs : List Fault) : Prop where
  tight : k ≤ e.tightness
  derived : e.Derived placed n ts fs

/-- What holds together more tightly than needed. -/
lemma Expr.DerivedAt.loosen {k k' : Nat} {e : Expr} (h : e.DerivedAt placed k n ts fs)
    (hk : k' ≤ k) : e.DerivedAt placed k' n ts fs :=
  ⟨Nat.le_trans hk h.tight, h.derived⟩

/-- A name does not change the span. -/
lemma Expr.span_named (name : Ident) (e : Expr) : (e.named name).span = e.span := by
  cases e with
  | function span n params body => cases n <;> rfl
  | _ => rfl

/-- A statement is placed among its tokens. -/
lemma Stmt.Derived.placed_span {stmt : Stmt} (h : stmt.Derived placed n ts fs) :
    placed stmt.span ts := by
  cases h with
  | expr hvalue => exact hvalue.placed_span
  | _ => assumption

/-- A statement has a token. -/
lemma Stmt.Derived.ne_nil {stmt : Stmt} (h : stmt.Derived placed n ts fs) : ts ≠ [] := by
  cases h with
  | expr hvalue => exact hvalue.ne_nil
  | _ => simp

/-- A statement that was read, with or without a semicolon after it. -/
def Stmt.Ended (placed : Span → List Token → Prop) (n : Nat) (stmt : Stmt) (ts : List Token)
    (fs : List Fault) : Prop :=
  ∃ us, stmt.Derived placed n us fs ∧
    (ts = us ∨ ∃ t : Token, t.kind = .symbol .semicolon ∧ ts = us ++ [t])

namespace Stmt.Ended

variable {stmt : Stmt}

/-- A statement before others. -/
lemma cons {top : Bool} {stmts : List Stmt} {us : List Token} {gs : List Fault}
    (h : stmt.Ended placed n ts fs) (hrest : Stmt.DerivedList placed top n stmts us gs) :
    Stmt.DerivedList placed top n (stmt :: stmts) (ts ++ us) (fs ++ gs) := by
  obtain ⟨vs, hstmt, rfl | ⟨t, ht, rfl⟩⟩ := h
  · exact .plain hstmt hrest
  · rw [List.append_assoc]
    exact .semicolon hstmt ht hrest

/-- A statement has a token. -/
lemma ne_nil (h : stmt.Ended placed n ts fs) : ts ≠ [] := by
  obtain ⟨vs, hstmt, rfl | ⟨t, ht, rfl⟩⟩ := h
  · exact hstmt.ne_nil
  · simp

end Stmt.Ended

end Lugha
