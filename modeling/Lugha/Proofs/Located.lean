import Lugha.Proofs.Derivation
import Lugha.Proofs.TokenOrder

/-!
# Exact spans are nested

Every tree carries the span of its text.  The span is exact if it goes from the beginning of the
first token from which the tree was read to the end of the last one.  `Span.Covers` says so of a
span and tokens, and `Expr.Derived Span.Covers` of a tree and of all trees inside, for their own
tokens.

A function that is bound without a name takes a copy of the name to which it is bound.  This copy
is the only name in a tree that stands outside of its tokens.

If the tokens are in order, spans are nested like the trees.  `Expr.Nested` says this of a tree
alone: no span ends before it begins, each span holds the spans of the parts, and the parts come
one after the other.
-/

namespace Lugha

/-! ### Nested spans -/

/-- A span holds the spans of its parts, which come one after the other. -/
structure Span.Encloses (s : Span) (parts : List Span) : Prop where
  valid : s.first.Before s.last
  inside : ∀ t ∈ parts, s.first.Before t.first ∧ t.last.Before s.last
  ordered : parts.Pairwise fun t u => t.last.Precedes u.first

mutual

/-- The spans of an expression are nested.  The name of a function is left out if it is the given
one, which was copied from elsewhere. -/
def Expr.Nested : Expr → Option Ident → Prop
  | .number span _, _ | .text span _, _ | .boolean span _, _ | .null span, _ | .name span _, _ =>
    span.Encloses []
  | .call span callee args, _ =>
    span.Encloses (callee.span :: args.map Expr.span) ∧ callee.Nested none ∧ Expr.NestedList args
  | .binary span _ left right, _ =>
    span.Encloses [left.span, right.span] ∧ left.Nested none ∧ right.Nested none
  | .unary span _ operand, _ => span.Encloses [operand.span] ∧ operand.Nested none
  | .conditional branches, _ => branches.Nested
  | .loop span condition body, _ =>
    span.Encloses [condition.span, body.span] ∧ condition.Nested none ∧ body.Nested
  | .function span name params body, copied =>
    span.Encloses (((if name = copied then [] else name.toList) ++ params).map Ident.span ++
      [body.span]) ∧ body.Nested
  | .paren span inner, _ => span.Encloses [inner.span] ∧ inner.Nested none

/-- The spans of some expressions are nested. -/
def Expr.NestedList : List Expr → Prop
  | [] => True
  | e :: es => e.Nested none ∧ Expr.NestedList es

/-- The spans of a conditional are nested. -/
def Conditional.Nested : Conditional → Prop
  | .ifThen span condition yes =>
    span.Encloses [condition.span, yes.span] ∧ condition.Nested none ∧ yes.Nested
  | .ifElse span condition yes no =>
    span.Encloses [condition.span, yes.span, no.span] ∧
      condition.Nested none ∧ yes.Nested ∧ no.Nested
  | .elseIf span condition yes next =>
    span.Encloses [condition.span, yes.span, next.span] ∧
      condition.Nested none ∧ yes.Nested ∧ next.Nested

/-- The spans of a block are nested. -/
def Block.Nested : Block → Prop
  | .mk span stmts => span.Encloses (stmts.map Stmt.span) ∧ Stmt.NestedList stmts

/-- The spans of some statements are nested. -/
def Stmt.NestedList : List Stmt → Prop
  | [] => True
  | stmt :: stmts => stmt.Nested ∧ Stmt.NestedList stmts

/-- The spans of a statement are nested. -/
def Stmt.Nested : Stmt → Prop
  | .bind span name value => span.Encloses [name.span, value.span] ∧ value.Nested (some name)
  | .assign span name value => span.Encloses [name.span, value.span] ∧ value.Nested none
  | .returnValue span value => span.Encloses [value.span] ∧ value.Nested none
  | .returnNothing span | .breakLoop span | .continueLoop span => span.Encloses []
  | .expr value => value.Nested none

end

/-- The spans of a program are nested, and its statements come one after the other. -/
def Program.Nested (p : Program) : Prop :=
  Stmt.NestedList p.stmts ∧
    (p.stmts.map Stmt.span).Pairwise fun s t => s.last.Precedes t.first

/-! ### Parts among their tokens -/

namespace Span

/-- A span is that of the given tokens. -/
def Covers (s : Span) (ts : List Token) : Prop := ts ≠ [] ∧ s = .ofTokens ts

/-- Spans of tokens that come one after the other among given ones, whatever stands between them.
What may stand there is said by the derivations, of which this keeps the order of spans alone. -/
inductive Scattered : List Span → List Token → Prop
  | nil : Scattered [] []
  | skip {ss : List Span} {ts : List Token} {t : Token} (h : Scattered ss ts) :
      Scattered ss (t :: ts)
  | cons {s : Span} {ss : List Span} {ts us : List Token} (h : s.Covers ts)
      (hrest : Scattered ss us) : Scattered (s :: ss) (ts ++ us)

namespace Scattered

variable {s : Span} {ss ss' : List Span} {ts us : List Token}

/-- One span. -/
lemma single (h : s.Covers ts) : Scattered [s] ts := by
  simpa using Scattered.cons h .nil

/-- Spans after spans. -/
lemma append (h : Scattered ss ts) (h' : Scattered ss' us) : Scattered (ss ++ ss') (ts ++ us) := by
  induction h with
  | nil => exact h'
  | skip _ ih => exact .skip ih
  | cons h _ ih => simpa using Scattered.cons h ih

/-- Tokens without a span. -/
lemma none (ts : List Token) : Scattered [] ts := by
  induction ts with
  | nil => exact .nil
  | cons t ts ih => exact .skip ih

/-- Tokens without a span before the spans. -/
lemma lead (ts : List Token) (h : Scattered ss us) : Scattered ss (ts ++ us) :=
  (Scattered.none ts).append h

/-- Tokens without a span after the spans. -/
lemma trail (h : Scattered ss ts) (us : List Token) : Scattered ss (ts ++ us) := by
  simpa using h.append (.none us)

/-- The tokens of a span stand among all tokens. -/
lemma split (h : Scattered ss ts) (hs : s ∈ ss) :
    ∃ xs us ys, ts = xs ++ (us ++ ys) ∧ s.Covers us := by
  induction h with
  | nil => cases hs
  | @skip ss ts t _ ih =>
    obtain ⟨xs, us, ys, rfl, hcovers⟩ := ih hs
    exact ⟨t :: xs, us, ys, rfl, hcovers⟩
  | @cons s' ss ts us h _ ih =>
    rcases List.mem_cons.1 hs with rfl | hs
    · exact ⟨[], ts, us, rfl, h⟩
    · obtain ⟨xs, vs, ys, rfl, hcovers⟩ := ih hs
      exact ⟨ts ++ xs, vs, ys, by simp, hcovers⟩

/-- The spans come one after the other. -/
lemma pairwise (h : Scattered ss ts) (hord : InOrder ts) :
    ss.Pairwise fun s t => s.last.Precedes t.first := by
  induction h with
  | nil => exact .nil
  | skip _ ih => exact ih hord.tail
  | @cons s ss ts us h hrest ih =>
    refine .cons (fun s' hs' => ?_) (ih hord.right)
    obtain ⟨hts, rfl⟩ := h
    obtain ⟨xs, vs, ys, rfl, hvs, rfl⟩ := hrest.split hs'
    have hne : xs ++ (vs ++ ys) ≠ [] := by simp [hvs]
    exact (hord.last_precedes_first hts hne).trans_before
      (Span.ofTokens_inside xs ys hord.right hvs).1

end Scattered

/-- The span of all tokens holds the spans of the parts. -/
lemma Covers.encloses {span : Span} {ss : List Span} {ts : List Token} (hspan : span.Covers ts)
    (hord : InOrder ts) (h : Scattered ss ts) : span.Encloses ss := by
  obtain ⟨hts, rfl⟩ := hspan
  refine ⟨hord.first_before_last hts, fun s hs => ?_, h.pairwise hord⟩
  obtain ⟨xs, us, ys, rfl, hus, rfl⟩ := h.split hs
  exact Span.ofTokens_inside xs ys hord hus

/-- The span of the first and the span of the last of some tokens give the span of all. -/
lemma Covers.merge {s s' : Span} {ts us vs : List Token} (h : s.Covers ts) (h' : s'.Covers us)
    (hord : InOrder vs) (hfirst : ts <+: vs) (hlast : us <:+ vs) : (s.merge s').Covers vs := by
  obtain ⟨hts, rfl⟩ := h
  obtain ⟨hus, rfl⟩ := h'
  refine ⟨?_, Span.merge_ofTokens hord hts hus hfirst hlast⟩
  rintro rfl
  exact hts (List.prefix_nil.1 hfirst)

end Span

/-- The span of a token is that of the token alone. -/
lemma Token.covers (t : Token) : t.span.Covers [t] := ⟨List.cons_ne_nil t [], rfl⟩

/-- The span of a name is that of its token. -/
lemma Ident.Located.covers {i : Ident} {ts : List Token} (h : i.Located ts) :
    i.span.Covers ts := by
  obtain ⟨t, rfl, -, hspan⟩ := h
  exact ⟨List.cons_ne_nil t [], hspan⟩

/-- Parameters stand among their tokens. -/
lemma Parameters.scattered {given params : List Ident} {ts : List Token} {fs : List Fault}
    (h : Parameters given params ts fs) : Span.Scattered (params.map Ident.span) ts := by
  induction h with
  | nil => exact .nil
  | last h => exact .single h.covers
  | cons h _ _ ih => exact .cons h.covers (.skip ih)

/-- The name of a function stands among the words before its parameters. -/
lemma Opening.scattered {name : Option Ident} {ts : List Token} (h : Opening name ts) :
    Span.Scattered ((if name = none then [] else name.toList).map Ident.span) ts := by
  cases h with
  | unda => exact .none _
  | kazi _ hname => exact .skip (.single hname.covers)

/-- Arguments stand among their tokens. -/
lemma Expr.DerivedArgs.scattered {n : Nat} {es : List Expr} {ts : List Token} {fs : List Fault} :
    Expr.DerivedArgs Span.Covers n es ts fs → Span.Scattered (es.map Expr.span) ts
  | .nil => .nil
  | .last h => .single h.placed_span
  | .cons h _ hrest => .cons h.placed_span (.skip hrest.scattered)

/-- Statements stand among their tokens. -/
lemma Stmt.DerivedList.scattered {top : Bool} {n : Nat} {stmts : List Stmt} {ts : List Token}
    {fs : List Fault} :
    Stmt.DerivedList Span.Covers top n stmts ts fs → Span.Scattered (stmts.map Stmt.span) ts
  | .nil => .nil
  | .plain h hrest => .cons h.placed_span hrest.scattered
  | .semicolon h _ hrest => .cons h.placed_span (.skip hrest.scattered)
  | .failed _ _ hrest => .lead _ (.lead _ hrest.scattered)
  | .brace _ hrest => .skip hrest.scattered

/-! ### Trees with exact spans are nested -/

/-- The names of a function and its body stand among its tokens. -/
lemma Opening.parts {n : Nat} {name : Option Ident} {params : List Ident} {body : Block}
    {hs ts us : List Token} {o c : Token} {fs gs : List Fault} (hhead : Opening name hs)
    (hparams : Parameters [] params ts fs) (hbody : body.Derived Span.Covers n us gs) :
    Span.Scattered (((if name = none then [] else name.toList) ++ params).map Ident.span ++
      [body.span]) (hs ++ o :: (ts ++ c :: us)) := by
  have hend : Span.Scattered [body.span] (c :: us) := .skip (.single hbody.placed_span)
  simpa using hhead.scattered.append (.skip (hparams.scattered.append hend))

/-- A function that takes its name from elsewhere has nested spans like before. -/
lemma Expr.nested_named {name : Ident} {e : Expr} (h : e.Nested none)
    (hother : ∀ span n params body, e = .function span (some n) params body → n ≠ name) :
    (e.named name).Nested (some name) := by
  cases e with
  | function span n params body =>
    cases n with
    | none => simpa [Expr.named, Expr.Nested] using h
    | some n =>
      have hne := hother span n params body rfl
      simpa [Expr.named, Expr.Nested, hne] using h
  | _ => simpa [Expr.named, Expr.Nested] using h

/-- A function that has its own name has it from one of its own tokens, and no earlier one. -/
lemma Expr.Derived.name_ne {placed : Span → List Token → Prop} {n : Nat} {span : Span}
    {name own : Ident} {params : List Ident} {body : Block} {ts us : List Token} {u : Token}
    {fs : List Fault} (h : (Expr.function span (some own) params body).Derived placed n us fs)
    (hname : name.Located ts) (hord : InOrder (ts ++ u :: us)) : own ≠ name := by
  rintro rfl
  obtain ⟨t, rfl, -, hspan⟩ := hname
  cases h with
  | function hhead =>
    cases hhead with
    | kazi _ hown =>
      obtain ⟨v, rfl, -, hspan'⟩ := hown
      have hapart := (List.pairwise_cons.1 hord.apart).1 v (by simp)
      have hv := hord.spans v (by simp)
      rw [← hspan', hspan] at hapart hv
      exact Position.not_before.2 hapart hv

-- The recursion is on the derivation, as for written forms: the value of a binding is not the tree
-- that was read but its named form.
mutual

/-- The spans of an expression are nested. -/
lemma Expr.Derived.nested {n : Nat} {e : Expr} {ts : List Token} {fs : List Fault} :
    Expr.Derived Span.Covers n e ts fs → InOrder ts → e.Nested none
  | .number _ hspan, hord | .text _ hspan, hord | .boolean _ hspan, hord | .null _ hspan, hord
  | .name _ hspan, hord => by
    rw [Expr.Nested]
    exact hspan.encloses hord (.none _)
  | .call _ hcallee _ hargs hspan, hord => by
    rw [Expr.Nested]
    exact ⟨hspan.encloses hord (.cons hcallee.placed_span (.skip (hargs.scattered.trail [_]))),
      hcallee.nested hord.left, hargs.nested hord.right.tail.left⟩
  | .binary _ hleft _ hright hspan, hord => by
    rw [Expr.Nested]
    exact ⟨hspan.encloses hord (.cons hleft.placed_span (.skip (.single hright.placed_span))),
      hleft.nested hord.left, hright.nested hord.right.tail⟩
  | .unary _ _ hoperand hspan, hord => by
    rw [Expr.Nested]
    exact ⟨hspan.encloses hord (.skip (.single hoperand.placed_span)), hoperand.nested hord.tail⟩
  | .conditional hbranches, hord => by
    rw [Expr.Nested]
    exact hbranches.nested hord
  | .loop _ _ hcondition hbody hspan, hord => by
    rw [Expr.Nested]
    exact ⟨hspan.encloses hord
        (.skip (.skip (.cons hcondition.placed_span (.skip (.single hbody.placed_span))))),
      hcondition.nested hord.tail.tail.left, hbody.nested hord.tail.tail.right.tail⟩
  | .function hhead _ hparams hbody hspan, hord => by
    rw [Expr.Nested]
    exact ⟨hspan.encloses hord (hhead.parts hparams hbody),
      hbody.nested hord.right.tail.right.tail⟩
  | .paren _ hinner hspan, hord => by
    rw [Expr.Nested]
    exact ⟨hspan.encloses hord (.skip ((Span.Scattered.single hinner.placed_span).trail [_])),
      hinner.nested hord.tail.left⟩

/-- The spans of arguments are nested. -/
lemma Expr.DerivedArgs.nested {n : Nat} {es : List Expr} {ts : List Token} {fs : List Fault} :
    Expr.DerivedArgs Span.Covers n es ts fs → InOrder ts → Expr.NestedList es
  | .nil, _ => by
    rw [Expr.NestedList]
    trivial
  | .last h, hord => by
    rw [Expr.NestedList, Expr.NestedList]
    exact ⟨h.nested hord, trivial⟩
  | .cons h _ hrest, hord => by
    rw [Expr.NestedList]
    exact ⟨h.nested hord.left, hrest.nested hord.right.tail⟩

/-- The spans of a conditional are nested. -/
lemma Conditional.Derived.nested {n : Nat} {branches : Conditional} {ts : List Token}
    {fs : List Fault} :
    Conditional.Derived Span.Covers n branches ts fs → InOrder ts → branches.Nested
  | .ifThen _ _ hcondition hyes hspan, hord => by
    rw [Conditional.Nested]
    exact ⟨hspan.encloses hord
        (.skip (.skip (.cons hcondition.placed_span (.skip (.single hyes.placed_span))))),
      hcondition.nested hord.tail.tail.left, hyes.nested hord.tail.tail.right.tail⟩
  | .ifElse _ _ hcondition hyes _ hno hspan, hord => by
    rw [Conditional.Nested]
    exact ⟨hspan.encloses hord (.skip (.skip (.cons hcondition.placed_span
        (.skip (.cons hyes.placed_span (.skip (.single hno.placed_span))))))),
      hcondition.nested hord.tail.tail.left, hyes.nested hord.tail.tail.right.tail.left,
      hno.nested hord.tail.tail.right.tail.right.tail⟩
  | .elseIf _ _ hcondition hyes _ hnext hspan, hord => by
    rw [Conditional.Nested]
    exact ⟨hspan.encloses hord (.skip (.skip (.cons hcondition.placed_span
        (.skip (.cons hyes.placed_span (.skip (.single hnext.placed_span))))))),
      hcondition.nested hord.tail.tail.left, hyes.nested hord.tail.tail.right.tail.left,
      hnext.nested hord.tail.tail.right.tail.right.tail⟩

/-- The spans of a block are nested. -/
lemma Block.Derived.nested {n : Nat} {b : Block} {ts : List Token} {fs : List Fault} :
    Block.Derived Span.Covers n b ts fs → InOrder ts → b.Nested
  | .mk _ hstmts _ hspan, hord => by
    rw [Block.Nested]
    exact ⟨hspan.encloses hord (.skip (hstmts.scattered.trail [_])),
      hstmts.nested hord.tail.left⟩

/-- The spans of statements are nested. -/
lemma Stmt.DerivedList.nested {top : Bool} {n : Nat} {stmts : List Stmt} {ts : List Token}
    {fs : List Fault} :
    Stmt.DerivedList Span.Covers top n stmts ts fs → InOrder ts → Stmt.NestedList stmts
  | .nil, _ => by
    rw [Stmt.NestedList]
    trivial
  | .plain h hrest, hord => by
    rw [Stmt.NestedList]
    exact ⟨h.nested hord.left, hrest.nested hord.right⟩
  | .semicolon h _ hrest, hord => by
    rw [Stmt.NestedList]
    exact ⟨h.nested hord.left, hrest.nested hord.right.tail⟩
  | .failed _ _ hrest, hord => hrest.nested hord.right.right
  | .brace _ hrest, hord => hrest.nested hord.tail

/-- The spans of a statement are nested. -/
lemma Stmt.Derived.nested {n : Nat} {stmt : Stmt} {ts : List Token} {fs : List Fault} :
    Stmt.Derived Span.Covers n stmt ts fs → InOrder ts → stmt.Nested
  | .bind _ hname _ hvalue hspan, hord => by
    rw [Stmt.Nested, Expr.span_named]
    refine ⟨hspan.encloses hord (.skip (.cons hname.covers (.skip (.single hvalue.placed_span)))),
      Expr.nested_named (hvalue.nested hord.tail.right.tail) ?_⟩
    rintro span n params body rfl
    exact hvalue.name_ne hname hord.tail
  | .assign hname _ hvalue hspan, hord => by
    rw [Stmt.Nested]
    exact ⟨hspan.encloses hord (.cons hname.covers (.skip (.single hvalue.placed_span))),
      hvalue.nested hord.right.tail⟩
  | .returnValue _ hvalue hspan, hord => by
    rw [Stmt.Nested]
    exact ⟨hspan.encloses hord (.skip (.single hvalue.placed_span)), hvalue.nested hord.tail⟩
  | .returnNothing _ hspan, hord | .breakLoop _ hspan, hord | .continueLoop _ hspan, hord => by
    rw [Stmt.Nested]
    exact hspan.encloses hord (.none _)
  | .expr hvalue, hord => by
    rw [Stmt.Nested]
    exact hvalue.nested hord

end

end Lugha
