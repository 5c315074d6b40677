import Lugha.Proofs.Printing
import Lugha.Proofs.Soundness
import Lugha.Proofs.Uniformity

/-!
# Printed programs are read back

A canonical program that is not nested too deeply is printed as tokens from which the parser
reads the same program.

Operators of one level group to the left, and so do calls: the parser reads the first operand and
then goes on with what it has read so far.  A tree of this kind is therefore not read as a whole
at once.  `Parser.Leads` says that reading it leads to where the whole tree has been read and the
loop may still go on.  It is shown along the left operands of the tree, and gives that the tree is
read where the loop has to stop.

Where the tokens stand does not matter, which is the comparison of two runs of the parser that
forgets all spans.
-/

namespace Lugha

namespace Parser

/-! ### Levels of operators -/

/-- The operators that bind with a given tightness. -/
def operatorAt : Nat → TokenKind → Option BinaryOp
  | 0 => eitherOp?
  | 1 => bothOp?
  | 2 => compareOp?
  | 3 => sumOp?
  | _ => productOp?

/-- Reads operands with the operators of the tightest levels between them. -/
def tier (operand : Parser Expr) : Nat → Parser Expr
  | 0 => operand
  | n + 1 => level (operatorAt (4 - n)) (tier operand n)

/-- Operators are found at their own level. -/
lemma operatorAt_tightness (op : BinaryOp) :
    operatorAt op.tightness (.symbol op.symbol) = some op := by
  cases op <;> rfl

/-- An operator draws what binds more tightly. -/
lemma pull_symbol (op : BinaryOp) : (TokenKind.symbol op.symbol).pull = op.tightness + 1 := by
  cases op <;> rfl

/-- Of what draws less, nothing is an operator of a level. -/
lemma operatorAt_eq_none {n : Nat} (hn : n ≤ 4) {k : TokenKind} (hpull : k.pull ≤ n) :
    operatorAt n k = none := by
  have hlevel : ReadsLevel (operatorAt n) n := by
    obtain ⟨heither, hboth, hcompare, hsum, hproduct⟩ := readsLevel_all
    intro kind op h
    match n, hn with
    | 0, _ => exact heither h
    | 1, _ => exact hboth h
    | 2, _ => exact hcompare h
    | 3, _ => exact hsum h
    | 4, _ => exact hproduct h
  cases hop : operatorAt n k with
  | none => rfl
  | some op =>
    obtain ⟨rfl, htight⟩ := hlevel hop
    rw [pull_symbol, htight] at hpull
    exact absurd hpull (Nat.not_succ_le_self n)

/-! ### Loops that go on with what was read so far -/

/-- Reading what a loop begins with, and then going on, leads to where an expression has been
read and the loop still has a round for every token. -/
def Leads (first : Parser Expr) (more : Nat → Expr → Parser Expr) (e : Expr)
    (rest : List TokenKind) : Prop :=
  ∃ e₀ mid, first (.ofKinds (e.tokens ++ rest)) = (some e₀, .ofKinds mid) ∧
    ∀ rounds, mid.length ≤ rounds → ∃ left, rest.length ≤ left ∧
      more rounds e₀ (.ofKinds mid) = more left (e.mapSpans .forget) (.ofKinds rest)

namespace Leads

variable {first : Parser Expr} {more : Nat → Expr → Parser Expr} {e e' : Expr}
  {rest rest' : List TokenKind}

/-- The loop has not begun yet. -/
lemma of_reads (h : first.Reads e.tokens (e.mapSpans .forget) rest) : Leads first more e rest :=
  ⟨_, rest, h, fun rounds hrounds => ⟨rounds, hrounds, rfl⟩⟩

/-- One round of the loop. -/
lemma step (h : Leads first more e rest) (htokens : e'.tokens ++ rest' = e.tokens ++ rest)
    (hlength : rest'.length < rest.length)
    (hmore : ∀ rounds, more (rounds + 1) (e.mapSpans .forget) (.ofKinds rest) =
      more rounds (e'.mapSpans .forget) (.ofKinds rest')) : Leads first more e' rest' := by
  obtain ⟨e₀, mid, hfirst, hleads⟩ := h
  refine ⟨e₀, mid, htokens ▸ hfirst, fun rounds hrounds => ?_⟩
  obtain ⟨left, hleft, heq⟩ := hleads rounds hrounds
  obtain ⟨left, rfl⟩ : ∃ n, left = n + 1 := ⟨left - 1, by omega⟩
  exact ⟨left, by omega, heq.trans (hmore left)⟩

/-- Where the loop stops, the expression is read. -/
lemma reads (h : Leads first more e rest)
    (hstop : ∀ rounds, more rounds (e.mapSpans .forget) (.ofKinds rest) =
      (some (e.mapSpans .forget), .ofKinds rest)) :
    (first >>= fun e c => more c.rest.length e c).Reads e.tokens (e.mapSpans .forget) rest := by
  obtain ⟨e₀, mid, hfirst, hleads⟩ := h
  obtain ⟨left, -, heq⟩ := hleads mid.length (Nat.le_refl _)
  change Parser.andThen first _ _ = _
  unfold Parser.andThen
  rw [hfirst]
  dsimp only
  rw [Cursor.length_ofKinds, heq, hstop]

end Leads

/-- Operands are not joined where no operator of their level follows. -/
lemma chain_stop {op? : TokenKind → Option BinaryOp} {operand : Parser Expr} {e : Expr} {c : Cursor}
    (h : op? c.kind = none) (rounds : Nat) : chain op? operand rounds e c = (some e, c) := by
  cases rounds with
  | zero => rfl
  | succ rounds => rw [chain, h]

/-- Nothing is called where no parenthesis is opened. -/
lemma calls_stop {expr : Parser Expr} {e : Expr} {c : Cursor} (h : c.atSymbol .openParen = false)
    (rounds : Nat) : calls expr rounds e c = (some e, c) := by
  cases rounds with
  | zero => rfl
  | succ rounds => simp [calls, h]

/-- Below an operand there is one level less. -/
def below : Nat → Parser Expr
  | 0 => tooDeep
  | levels + 1 => operand levels

/-- An operand may have a sign before it, or else holds whole expressions. -/
lemma operand_eq (levels : Nat) : operand levels = prefixed (below levels) (expression levels) := by
  funext c
  cases levels <;> rfl

end Parser

/-! ### Expressions -/

open Lugha.Parser

/-- An expression is read wherever it may stand.  It is a callee if it holds together tightly
enough, an operand of operators that bind more loosely, and the beginning of a row of operands. -/
structure Expr.Readable (levels : Nat) (e : Expr) : Prop where
  called : 6 ≤ e.tightness → ∀ rest, pull rest ≤ 6 →
    Leads (primary (expression levels)) (calls (expression levels)) e rest
  closed : ∀ n ≤ 5, 5 ≤ e.tightness + n → ∀ rest, pull rest ≤ 5 - n →
    (tier (operand levels) n).Reads e.tokens (e.mapSpans .forget) rest
  opened : ∀ n ≤ 4, 5 ≤ e.tightness + (n + 1) → ∀ rest, pull rest ≤ 5 - n →
    Leads (tier (operand levels) n) (chain (operatorAt (4 - n)) (tier (operand levels) n)) e rest

namespace Expr

variable {levels : Nat} {e : Expr}

/-- Where no operator follows, a row of operands is read. -/
lemma reads_tier_succ {n : Nat} {rest : List TokenKind} (hpull : pull rest ≤ 4 - n)
    (h : Leads (tier (operand levels) n)
      (chain (operatorAt (4 - n)) (tier (operand levels) n)) e rest) :
    (tier (operand levels) (n + 1)).Reads e.tokens (e.mapSpans .forget) rest := by
  refine h.reads fun rounds => chain_stop ?_ rounds
  cases rest with
  | nil => exact operatorAt_eq_none (Nat.sub_le 4 n) (Nat.zero_le _)
  | cons k ks => exact operatorAt_eq_none (Nat.sub_le 4 n) hpull

/-- What is read with the operators of some levels is read with those of more levels. -/
lemma reads_tier_of_le {m n : Nat} (hmn : m ≤ n) (hn : n ≤ 5)
    (h : ∀ rest, pull rest ≤ 5 - m →
      (tier (operand levels) m).Reads e.tokens (e.mapSpans .forget) rest)
    (rest : List TokenKind) (hpull : pull rest ≤ 5 - n) :
    (tier (operand levels) n).Reads e.tokens (e.mapSpans .forget) rest := by
  induction hmn generalizing rest with
  | refl => exact h rest hpull
  | @step n hmn ih =>
    have hread := ih (by omega) rest (by omega)
    exact reads_tier_succ (by omega) (.of_reads hread)

/-- An expression is read wherever it may stand, if it is read where it stands most tightly. -/
lemma Readable.of_closed {m : Nat} (hm : ∀ n, 5 ≤ e.tightness + n → m ≤ n)
    (hcalled : 6 ≤ e.tightness → ∀ rest, pull rest ≤ 6 →
      Leads (primary (expression levels)) (calls (expression levels)) e rest)
    (hclosed : ∀ rest, pull rest ≤ 5 - m →
      (tier (operand levels) m).Reads e.tokens (e.mapSpans .forget) rest)
    (hopened : ∀ n, m = n + 1 → ∀ rest, pull rest ≤ 5 - n →
      Leads (tier (operand levels) n) (chain (operatorAt (4 - n)) (tier (operand levels) n)) e
        rest) : e.Readable levels where
  called := hcalled
  closed := fun n hn htight => reads_tier_of_le (hm n htight) hn hclosed
  opened := by
    intro n hn htight rest hpull
    rcases Nat.lt_or_eq_of_le (hm (n + 1) htight) with hlt | heq
    · exact .of_reads (reads_tier_of_le (Nat.le_of_lt_succ hlt) (by omega) hclosed rest hpull)
    · exact hopened n heq rest hpull

/-- A callee is read wherever it may stand. -/
lemma Readable.of_called (htight : 6 ≤ e.tightness) (hcanonical : e.isCanonical)
    (hcalled : ∀ rest, pull rest ≤ 6 →
      Leads (primary (expression levels)) (calls (expression levels)) e rest) :
    e.Readable levels := by
  refine .of_closed (m := 0) (fun n _ => Nat.zero_le n) (fun _ => hcalled) ?_ ?_
  · intro rest hpull
    obtain ⟨k, ks, hks, -⟩ := e.tokens_eq_cons
    have hnone : unaryOp? (Cursor.ofKinds (e.tokens ++ rest)).kind = none := by
      rw [hks]
      exact unaryOp?_eq_none htight hcanonical hks
    have hparen : (Cursor.ofKinds rest).atSymbol .openParen = false := by
      rw [← Bool.not_eq_true, Cursor.atSymbol_iff]
      intro hkind
      cases rest with
      | nil => cases hkind
      | cons k ks =>
        obtain rfl : k = .symbol .openParen := hkind
        simp [pull, TokenKind.pull] at hpull
    have hread := (hcalled rest (Nat.le_succ_of_le hpull)).reads (calls_stop hparen)
    unfold Reads at hread ⊢
    change operand levels _ = _
    rw [operand_eq, prefixed_of_none hnone]
    exact hread
  · intro n hn
    cases hn

/-- An operand that has its own beginning is read wherever it may stand. -/
lemma Readable.of_primary (htight : 6 ≤ e.tightness) (hcanonical : e.isCanonical)
    (h : ∀ rest, pull rest ≤ 6 →
      (primary (expression levels)).Reads e.tokens (e.mapSpans .forget) rest) :
    e.Readable levels :=
  .of_called htight hcanonical fun rest hpull => .of_reads (h rest hpull)

/-- A call. -/
lemma Readable.call {span : Span} {callee : Expr} {args : List Expr} (htight : 6 ≤ callee.tightness)
    (hcanonical : (Expr.call span callee args).isCanonical) (hcallee : callee.Readable levels)
    (hargs : ∀ a ∈ args, a.ReadBy (expression levels)) :
    (Expr.call span callee args).Readable levels := by
  refine .of_called (Nat.le_refl 6) hcanonical fun rest hpull => ?_
  have hcall : Reads (Parser.call (expression levels) (callee.mapSpans .forget)) _ _ rest :=
    reads_call hargs
  have hopen (ks : List TokenKind) : pull (.symbol .openParen :: ks) ≤ 6 := Nat.le_refl 6
  have hleads := hcallee.called htight (.symbol .openParen ::
    (separated (Expr.tokensEach args) ++ [.symbol .closeParen]) ++ rest) (hopen _)
  refine hleads.step ?_ ?_ fun rounds => ?_
  · simp [Expr.tokens]
  · simp only [List.length_append, List.length_cons]
    omega
  · rw [List.cons_append, calls_succ (Cursor.atSymbol_ofKinds ..)]
    unfold Parser.andThen
    rw [← List.cons_append, hcall, Expr.mapSpans]
    rfl

/-- Two operands. -/
lemma Readable.binary {span : Span} {op : BinaryOp} {left right : Expr}
    (hlooser : op.tightness ≤ left.tightness) (htighter : op.tightness < right.tightness)
    (hleft : left.Readable levels) (hright : right.Readable levels) :
    (Expr.binary span op left right).Readable levels := by
  have htight : (Expr.binary span op left right).tightness = op.tightness := rfl
  have hop : op.tightness ≤ 4 := by cases op <;> decide
  have hopened (rest : List TokenKind) (hpull : pull rest ≤ op.tightness + 1) :
      Leads (tier (operand levels) (4 - op.tightness))
        (chain (operatorAt (4 - (4 - op.tightness))) (tier (operand levels) (4 - op.tightness)))
        (.binary span op left right) rest := by
    have hread := hright.closed (4 - op.tightness) (by omega) (by omega) rest (by omega)
    have hsymbol : pull (.symbol op.symbol :: (right.tokens ++ rest)) = op.tightness + 1 :=
      pull_symbol op
    have hleads := hleft.opened (4 - op.tightness) (by omega) (by omega)
      (.symbol op.symbol :: (right.tokens ++ rest)) (by omega)
    refine hleads.step ?_ ?_ fun rounds => ?_
    · simp [Expr.tokens]
    · simp only [List.length_append, List.length_cons]
      omega
    · have hfound : operatorAt (4 - (4 - op.tightness))
          (Cursor.ofKinds (.symbol op.symbol :: (right.tokens ++ rest))).kind = some op := by
        rw [Nat.sub_sub_self hop]
        exact operatorAt_tightness op
      rw [chain_succ hfound, Cursor.advance_ofKinds]
      unfold Parser.andThen
      rw [hread]
      simp only [join, Expr.mapSpans, Expr.span_mapSpans, Span.forget_eq, Span.merge_synthetic]
  refine .of_closed (m := 5 - op.tightness) (fun n hn => by omega) (fun h => by omega) ?_ ?_
  · intro rest hpull
    have hread := reads_tier_succ (by omega) (hopened rest (by omega))
    rwa [show 4 - op.tightness + 1 = 5 - op.tightness by omega] at hread
  · intro n hn rest hpull
    obtain rfl : n = 4 - op.tightness := by omega
    exact hopened rest (by omega)

/-- An operand with a sign before it. -/
lemma Readable.unary {span : Span} {op : UnaryOp} {operand : Expr} (htight : 5 ≤ operand.tightness)
    (hoperand : operand.Readable levels) :
    (Expr.unary span op operand).Readable (levels + 1) := by
  have htightness : (Expr.unary span op operand).tightness = 5 := rfl
  refine .of_closed (m := 0) (fun n _ => Nat.zero_le n) (fun h => by omega) ?_
    fun n hn => nomatch hn
  intro rest hpull
  have hop : unaryOp? (Cursor.ofKinds (.symbol op.symbol :: (operand.tokens ++ rest))).kind =
      some op := by
    cases op <;> rfl
  have hread := hoperand.closed 0 (by omega) (by omega) rest hpull
  have hprefixed : Reads (do
        let start ← next
        let operand ← Parser.operand levels
        return .unary (start.span.merge operand.span) op operand : Parser Expr)
      (.symbol op.symbol :: operand.tokens) (.unary .synthetic op (operand.mapSpans .forget))
      rest := by
    refine (reads_next _).cons (Reads.last hread (.pure ?_))
    simp only [Expr.span_mapSpans, Span.forget_eq, Span.merge_synthetic]
  unfold Reads at hprefixed ⊢
  change Parser.operand (levels + 1) _ = _
  rw [operand_eq, prefixed, Expr.tokens, List.cons_append, hop]
  exact hprefixed

/-- An expression is read as a whole. -/
lemma Readable.readBy (h : e.Readable levels) : e.ReadBy (expression (levels + 1)) :=
  fun rest hpull => h.closed 5 (Nat.le_refl 5) (Nat.le_add_left 5 _) rest (Nat.le_of_eq hpull)

/-- An expression is read one level deeper than what holds it. -/
lemma readBy_of_nesting_lt (h : ∀ levels, e.nesting ≤ levels → e.Readable levels)
    (hlevels : e.nesting + 1 ≤ levels) : e.ReadBy (expression levels) := by
  obtain ⟨levels, rfl⟩ := Nat.exists_eq_succ_of_ne_zero (Nat.ne_zero_of_lt hlevels)
  exact (h levels (Nat.le_of_succ_le_succ hlevels)).readBy

end Expr

mutual

/-- Canonical expressions are read again. -/
lemma Expr.readable : ∀ (e : Expr) (levels : Nat), e.isCanonical → e.nesting ≤ levels →
    e.Readable levels
  | .number .., _, _, _ => .of_primary (Nat.le_refl 6) rfl fun _ _ => rfl
  | .text .., _, _, _ => .of_primary (Nat.le_refl 6) rfl fun _ _ => rfl
  | .boolean _ b, _, _, _ => .of_primary (Nat.le_refl 6) rfl fun _ _ => reads_boolean b
  | .null .., _, _, _ => .of_primary (Nat.le_refl 6) rfl fun _ _ => rfl
  | .name .., _, _, _ => .of_primary (Nat.le_refl 6) rfl fun _ _ => rfl
  | .call _ callee args, levels, hcanonical, hnesting => by
    have hparts := hcanonical
    simp only [Expr.isCanonical, Bool.and_eq_true, decide_eq_true_eq] at hparts
    obtain ⟨⟨htight, hcallee⟩, hargs⟩ := hparts
    simp only [Expr.nesting] at hnesting
    exact .call htight hcanonical (callee.readable levels hcallee (by omega))
      (Expr.readByList args levels hargs (by omega))
  | .binary _ op left right, levels, hcanonical, hnesting => by
    simp only [Expr.isCanonical, Bool.and_eq_true, decide_eq_true_eq] at hcanonical
    obtain ⟨⟨⟨hlooser, htighter⟩, hleft⟩, hright⟩ := hcanonical
    simp only [Expr.nesting] at hnesting
    exact .binary hlooser htighter (left.readable levels hleft (by omega))
      (right.readable levels hright (by omega))
  | .unary _ op operand, levels, hcanonical, hnesting => by
    simp only [Expr.isCanonical, Bool.and_eq_true, decide_eq_true_eq] at hcanonical
    simp only [Expr.nesting] at hnesting
    obtain ⟨levels, rfl⟩ := Nat.exists_eq_succ_of_ne_zero (Nat.ne_zero_of_lt hnesting)
    exact .unary hcanonical.1 (operand.readable levels hcanonical.2 (by omega))
  | .conditional branches, levels, hcanonical, hnesting => by
    have hbranches := branches.readBy levels hcanonical hnesting
    exact .of_primary (Nat.le_refl 6) hcanonical fun _ hpull => reads_choice hbranches hpull
  | .loop _ condition body, levels, hcanonical, hnesting => by
    have hparts := hcanonical
    simp only [Expr.isCanonical, Bool.and_eq_true] at hparts
    simp only [Expr.nesting] at hnesting
    have hcondition := Expr.readBy_of_nesting_lt (fun l => condition.readable l hparts.1)
      (Nat.le_trans (Nat.le_max_left ..) hnesting)
    have hbody := body.readBy levels hparts.2 (by omega)
    exact .of_primary (Nat.le_refl 6) hcanonical fun _ _ => reads_loop hcondition hbody
  | .function _ title params body, levels, hcanonical, hnesting => by
    have hparts := hcanonical
    simp only [Expr.isCanonical, Bool.and_eq_true] at hparts
    have hbody := body.readBy levels hparts.2 hnesting
    exact .of_primary (Nat.le_refl 6) hcanonical fun _ _ => reads_function hparts.1 hbody
  | .paren _ inner, levels, hcanonical, hnesting => by
    have hinner := Expr.readBy_of_nesting_lt (fun l => inner.readable l hcanonical) hnesting
    exact .of_primary (Nat.le_refl 6) hcanonical fun _ _ => reads_paren hinner

/-- Canonical arguments are read again. -/
lemma Expr.readByList : ∀ (es : List Expr) (levels : Nat), Expr.areCanonical es →
    Expr.nestingList es ≤ levels → ∀ e ∈ es, e.ReadBy (expression levels)
  | [], _, _, _ => fun _ he => absurd he List.not_mem_nil
  | e :: es, levels, hcanonical, hnesting => by
    simp only [Expr.areCanonical, Bool.and_eq_true] at hcanonical
    simp only [Expr.nestingList] at hnesting
    have hfirst := Expr.readBy_of_nesting_lt (fun l => e.readable l hcanonical.1)
      (Nat.le_trans (Nat.le_max_left ..) hnesting)
    have hrest := Expr.readByList es levels hcanonical.2 (by omega)
    exact List.forall_mem_cons.2 ⟨hfirst, hrest⟩

/-- Canonical conditionals are read again. -/
lemma Conditional.readBy : ∀ (k : Conditional) (levels : Nat), k.isCanonical →
    k.nesting ≤ levels → k.ReadBy (expression levels)
  | .ifThen _ condition yes, levels, hcanonical, hnesting => by
    simp only [Conditional.isCanonical, Bool.and_eq_true] at hcanonical
    simp only [Conditional.nesting] at hnesting
    have hcondition := Expr.readBy_of_nesting_lt (fun l => condition.readable l hcanonical.1)
      (Nat.le_trans (Nat.le_max_left ..) hnesting)
    exact .ifThen hcondition (yes.readBy levels hcanonical.2 (by omega))
  | .ifElse _ condition yes no, levels, hcanonical, hnesting => by
    simp only [Conditional.isCanonical, Bool.and_eq_true] at hcanonical
    simp only [Conditional.nesting] at hnesting
    obtain ⟨⟨hcondition, hyes⟩, hno⟩ := hcanonical
    have hread := Expr.readBy_of_nesting_lt (fun l => condition.readable l hcondition)
      (Nat.le_trans (Nat.le_max_left ..) hnesting)
    exact .ifElse hread (yes.readBy levels hyes (by omega)) (no.readBy levels hno (by omega))
  | .elseIf _ condition yes next, levels, hcanonical, hnesting => by
    simp only [Conditional.isCanonical, Bool.and_eq_true] at hcanonical
    simp only [Conditional.nesting] at hnesting
    obtain ⟨⟨hcondition, hyes⟩, hnext⟩ := hcanonical
    have hread := Expr.readBy_of_nesting_lt (fun l => condition.readable l hcondition)
      (Nat.le_trans (Nat.le_max_left ..) hnesting)
    exact .elseIf hread (yes.readBy levels hyes (by omega)) (next.readBy levels hnext (by omega))

/-- Canonical blocks are read again. -/
lemma Block.readBy : ∀ (b : Block) (levels : Nat), b.isCanonical → b.nesting ≤ levels →
    b.ReadBy (expression levels)
  | .mk _ stmts, levels, hcanonical, hnesting =>
    .mk (Stmt.readByList stmts levels hcanonical hnesting)

/-- Canonical statements are read again. -/
lemma Stmt.readByList : ∀ (stmts : List Stmt) (levels : Nat), Stmt.areCanonical stmts →
    Stmt.nestingList stmts ≤ levels → ∀ stmt ∈ stmts, stmt.ReadBy (expression levels)
  | [], _, _, _ => fun _ hmem => absurd hmem List.not_mem_nil
  | stmt :: stmts, levels, hcanonical, hnesting => by
    simp only [Stmt.areCanonical, Bool.and_eq_true] at hcanonical
    simp only [Stmt.nestingList] at hnesting
    have hfirst := stmt.readBy levels hcanonical.1 (by omega)
    have hrest := Stmt.readByList stmts levels hcanonical.2 (by omega)
    exact List.forall_mem_cons.2 ⟨hfirst, hrest⟩

/-- A canonical statement is read again. -/
lemma Stmt.readBy : ∀ (stmt : Stmt) (levels : Nat), stmt.isCanonical → stmt.nesting ≤ levels →
    stmt.ReadBy (expression levels)
  | .bind _ _ value, levels, hcanonical, hnesting => by
    simp only [Stmt.isCanonical, Bool.and_eq_true, Bool.not_eq_true'] at hcanonical
    have hvalue := Expr.readBy_of_nesting_lt (fun l => value.readable l hcanonical.2) hnesting
    exact .bind hvalue hcanonical.1
  | .assign _ _ value, levels, hcanonical, hnesting =>
    .assign (Expr.readBy_of_nesting_lt (fun l => value.readable l hcanonical) hnesting)
  | .returnValue _ value, levels, hcanonical, hnesting =>
    .returnValue (Expr.readBy_of_nesting_lt (fun l => value.readable l hcanonical) hnesting)
  | .expr value, levels, hcanonical, hnesting =>
    .bare (Expr.readBy_of_nesting_lt (fun l => value.readable l hcanonical) hnesting)
  | .returnNothing _, _, _, _ => fun _ => rfl
  | .breakLoop _, _, _, _ => fun _ => rfl
  | .continueLoop _, _, _, _ => fun _ => rfl

end

/-! ### Programs -/

/-- A program that is not empty is printed with a semicolon at its end. -/
lemma Stmt.tokensList_eq_concat : ∀ {stmts : List Stmt}, stmts ≠ [] →
    ∃ ks, Stmt.tokensList stmts = ks ++ [.symbol .semicolon]
  | [], h => absurd rfl h
  | [stmt], _ => ⟨stmt.tokens, by simp [Stmt.tokensList]⟩
  | stmt :: stmt' :: stmts, _ => by
    obtain ⟨ks, hks⟩ := Stmt.tokensList_eq_concat (List.cons_ne_nil stmt' stmts)
    rw [Stmt.tokensList, hks]
    exact ⟨stmt.tokens ++ .symbol .semicolon :: ks, by simp⟩

/-- The tokens of a printed program are read up to a mark of the end, which may be left out. -/
lemma Cursor.kinds_ofTokens_tokens {p : Program} {tokens : List Token}
    (h : tokens.map (·.kind) = p.tokens ∨ tokens.map (·.kind) = p.tokens ++ [.endOfFile]) :
    (ofTokens tokens).rest.map (·.kind) = p.tokens ++ [.endOfFile] := by
  unfold ofTokens
  rcases h with h | h
  · cases hlast : tokens.getLast? with
    | none =>
      obtain rfl : tokens = [] := List.getLast?_eq_none_iff.1 hlast
      rw [← h]
      rfl
    | some t =>
      obtain ⟨ts, rfl⟩ := List.getLast?_eq_some_iff.1 hlast
      have hne : p.stmts ≠ [] := by
        intro hnil
        simp [Program.tokens, hnil, Stmt.tokensList] at h
      obtain ⟨ks, hks⟩ := Stmt.tokensList_eq_concat hne
      have hkind : t.kind = .symbol .semicolon := by
        rw [Program.tokens, hks, List.map_append] at h
        exact (List.cons.inj (List.append_inj_right' h rfl)).1
      simp [hkind, TokenKind.isEnd, ← h]
  · obtain ⟨ts, us, rfl, -, hus⟩ := List.map_eq_append_iff.1 h
    obtain ⟨t, rfl, ht⟩ := List.map_eq_singleton_iff.1 hus
    simpa [ht, TokenKind.isEnd] using h

/-- Reading undoes printing.  A canonical program that is not nested too deeply is printed as
tokens from which the same program is read, wherever the tokens stand, and nothing is reported. -/
theorem parseTokens_of_tokens {p : Program} (hcanonical : p.isCanonical)
    (hnesting : p.nesting ≤ maxNesting) {tokens : List Token}
    (htokens : tokens.map (·.kind) = p.tokens ∨
      tokens.map (·.kind) = p.tokens ++ [.endOfFile]) :
    (parseTokens tokens).1.withoutSpans = p.withoutSpans ∧ (parseTokens tokens).2 = .empty := by
  have hrest : (Comparison.placeless [] []).Rest (Cursor.ofKinds (p.tokens ++ [.endOfFile])).rest
      (Cursor.ofTokens tokens).rest :=
    Comparison.rest_of_ended (Cursor.kinds_ofKinds _) (Cursor.kinds_ofTokens_tokens htokens)
  have habreast : (Comparison.placeless [] []).Abreast False
      (.ofKinds (p.tokens ++ [.endOfFile])) (.ofTokens tokens) :=
    ⟨hrest, False.elim, rfl⟩
  -- tokens that stand at one place are read back, and the given ones are read alike
  have hstmts := Stmt.readByList p.stmts maxNesting hcanonical hnesting
  have hrounds : (Stmt.tokensList p.stmts).length <
      (Cursor.ofKinds (p.tokens ++ [.endOfFile])).rest.length := by
    simp [Program.tokens]
  have houtcome := Comparison.programStatements_outcome
    (Comparison.parallel_expression maxNesting) habreast (Nat.le_refl _) (Nat.le_refl _)
  have hread := Parser.reads_programStatements hstmts hrounds
  unfold Parser.Reads at hread
  rw [Program.tokens] at houtcome hread
  rw [hread] at houtcome
  cases houtcome with
  | ok hsame h =>
    rw [Stmt.mapSpansList_mapSpansList] at hsame
    constructor
    · unfold Program.withoutSpans Program.mapSpans
      congr 1
      exact hsame.symm
    · exact ErrorList.eq_empty_of_map h.faults
  | lost hlost => exact absurd hlost (Nat.not_succ_le_zero 0)

/-- `fanya f = kazi f(x, y) { rudisha; }; f(x - (y - x))(!...!x);`, with as many signs as there are
levels, is read back. -/
theorem parseTokens_of_tokens_deepest :
    let x : Expr := .name .synthetic "x"
    let y : Expr := .name .synthetic "y"
    let f : Ident := ⟨"f", .synthetic⟩
    let signs : Expr := (List.replicate 62 UnaryOp.invert).foldr (.unary .synthetic) x
    let difference : Expr := .binary .synthetic .sub x
      (.paren .synthetic (.binary .synthetic .sub y x))
    let p : Program :=
      ⟨[.bind .synthetic f (.function .synthetic (some f) [⟨"x", .synthetic⟩, ⟨"y", .synthetic⟩]
          (.mk .synthetic [.returnNothing .synthetic])),
        .expr (.call .synthetic (.call .synthetic (.name .synthetic "f") [difference]) [signs])],
        .synthetic⟩
    let tokens : List Token := p.tokens.map (⟨·, .point .origin⟩)
    p.isCanonical ∧ p.nesting = maxNesting ∧
    (parseTokens tokens).1.withoutSpans = p.withoutSpans ∧ (parseTokens tokens).2 = .empty := by
  intro x y f signs difference p tokens
  have hcanonical : p.isCanonical := by decide
  have hnesting : p.nesting = maxNesting := by decide
  have htokens : tokens.map (·.kind) = p.tokens := by
    simp [tokens, Function.comp_def]
  exact ⟨hcanonical, hnesting,
    parseTokens_of_tokens hcanonical (Nat.le_of_eq hnesting) (.inl htokens)⟩

end Lugha
