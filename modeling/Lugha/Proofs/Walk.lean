import Lugha.Proofs.Watch

/-!
# The way through the parser

Whatever is watched, the parser yields trees that are derived from the tokens that it read.  There
is one lemma for each parser.  The parsers of blocks and operands take the parser of expressions as
an argument, and so do their lemmas; `Parser.yields_operand` closes the circle by recursion on the
levels that are left.

A watch that asks something of moves has to say itself why a block and a function make moves that it
allows, for these are the places where statements are skipped and where faults are reported that do
not stop the parser.  `Watch.Closed` collects the two.

A loop keeps its relation from round to round, and how many rounds are left matters in two places
only: a conditional needs one for each alternative, and a program is read to its end, or until the
error list is full.
-/

namespace Lugha

/-! ### Operators -/

/-- The sign of an operator is loose. -/
lemma BinaryOp.loose (op : BinaryOp) : (TokenKind.symbol op.symbol).Loose :=
  .symbol (by cases op <;> decide)

/-- The sign of an operator before an operand is loose. -/
lemma UnaryOp.loose (op : UnaryOp) : (TokenKind.symbol op.symbol).Loose :=
  .symbol (by cases op <;> decide)

namespace Parser

/-- A sign stands for operators of one level. -/
def ReadsLevel (op? : TokenKind → Option BinaryOp) (k : Nat) : Prop :=
  ∀ {kind op}, op? kind = some op → kind = .symbol op.symbol ∧ op.tightness = k

/-- The levels of all operators, from the loosest to the tightest. -/
lemma readsLevel_all : ReadsLevel eitherOp? 0 ∧ ReadsLevel bothOp? 1 ∧ ReadsLevel compareOp? 2 ∧
    ReadsLevel sumOp? 3 ∧ ReadsLevel productOp? 4 := by
  refine ⟨?_, ?_, ?_, ?_, ?_⟩ <;> intro kind op h
  · unfold eitherOp? at h
    split at h <;> cases h
    exact ⟨rfl, rfl⟩
  · unfold bothOp? at h
    split at h <;> cases h
    exact ⟨rfl, rfl⟩
  · unfold compareOp? at h
    split at h <;> cases h <;> exact ⟨rfl, rfl⟩
  · unfold sumOp? at h
    split at h <;> cases h <;> exact ⟨rfl, rfl⟩
  · unfold productOp? at h
    split at h <;> cases h <;> exact ⟨rfl, rfl⟩

/-- A sign before an operand stands for its operator. -/
lemma kind_of_unaryOp {kind : TokenKind} {op : UnaryOp} (h : unaryOp? kind = some op) :
    kind = .symbol op.symbol := by
  unfold unaryOp? at h
  split at h <;> cases h <;> rfl

/-! ### Statements -/

variable {W : Watch} {m n : Nat} {c : Cursor} {expr : Parser Expr}

section Statements

variable (hexpr : W.YieldsExpr m n expr)

include hexpr

/-- `fanya` binds a value. -/
lemma yields_binding (hkind : c.kind = .keyword .fanya) :
    W.Yields m c (Stmt.Derived W.placed n) (binding expr c) := by
  refine .next hkind (.keyword _) fun h₀ => ?_
  refine .bind yields_ident ?_
  rintro name c₁ ts _ h₁ ⟨hname, rfl⟩
  refine .bind (yields_expect (Watch.admits_of_loose (.symbol (by decide)))) ?_
  rintro u c₂ _ _ h₂ ⟨hu, rfl, rfl⟩
  refine .last (hexpr c₂) (fun _ _ => rfl) fun value c₃ us fs h₃ hvalue => ?_
  have hmove := h₀.trans (h₁.trans (h₂.trans h₃))
  exact .bind hkind hname hu hvalue (hmove.placed_merge
    (h₀.placed_token (List.mem_singleton_self _)) hvalue.placed_span (List.prefix_append [c.peek] _)
    ⟨c.peek :: (ts ++ [u]), by simp⟩)

/-- A name is assigned a value. -/
lemma yields_assignment : W.Yields m c (Stmt.Derived W.placed n) (assignment expr c) := by
  refine .bind yields_ident ?_
  rintro name c₁ _ _ h₁ ⟨⟨t, rfl, ht, hspan⟩, rfl⟩
  refine .bind (yields_expect (Watch.admits_of_loose (.symbol (by decide)))) ?_
  rintro u c₂ _ _ h₂ ⟨hu, rfl, rfl⟩
  refine .last (hexpr c₂) (fun _ _ => rfl) fun value c₃ us fs h₃ hvalue => ?_
  have hmove := h₁.trans (h₂.trans h₃)
  refine .assign ⟨t, rfl, ht, hspan⟩ hu hvalue ?_
  rw [hspan]
  exact hmove.placed_merge (h₁.placed_token (List.mem_singleton_self _)) hvalue.placed_span
    (List.prefix_append [t] _) ⟨[t, u], rfl⟩

/-- `rudisha` with or without a value. -/
lemma yields_returning (hkind : c.kind = .keyword .rudisha) :
    W.Yields m c (Stmt.Derived W.placed n) (returning expr c) := by
  refine .next hkind (.keyword _) fun h₀ => .look ?_
  have hstart := h₀.placed_token (List.mem_singleton_self _)
  split
  · exact .pure (.returnNothing hkind hstart)
  · refine .last (hexpr _) (fun _ _ => rfl) fun value c₁ ts fs h₁ hvalue => ?_
    exact .returnValue hkind hvalue ((h₀.trans h₁).placed_merge hstart hvalue.placed_span
      (List.prefix_append [c.peek] _) (List.suffix_cons _ ts))

/-- An expression as a statement. -/
lemma yields_bare : W.Yields m c (Stmt.Derived W.placed n) (bare expr c) := by
  refine .bind (hexpr c) fun value c₁ ts fs h₁ hvalue => .look ?_
  split
  · exact .failAt _ fun _ => W.allowed_of_placed hvalue.placed_span
  · exact .pure (by simpa using Stmt.Derived.expr hvalue)

/-- A statement up to its semicolon. -/
lemma yields_unterminated : W.Yields m c (Stmt.Derived W.placed n) (unterminated expr c) := by
  unfold unterminated
  split
  · next h => exact yields_binding hexpr h
  · next h => exact yields_returning hexpr h
  · next h => exact .token h (.keyword _) fun hspan => .breakLoop h hspan
  · next h => exact .token h (.keyword _) fun hspan => .continueLoop h hspan
  · split
    · exact yields_assignment hexpr
    · exact yields_bare hexpr

/-- A statement and the semicolon after it. -/
lemma yields_statement (hsemicolon : W.Admits (.symbol .semicolon)) :
    W.Yields m c (Stmt.Ended W.placed n) (statement expr c) := by
  refine .bind (yields_unterminated hexpr) fun stmt c₁ ts fs h₁ hstmt => ?_
  refine .last (yields_eat hsemicolon) (fun _ _ => rfl) ?_
  rintro b c₂ us _ h₂ ⟨rfl, hb⟩
  rw [List.append_nil]
  refine ⟨ts, hstmt, ?_⟩
  cases b with
  | false =>
    obtain rfl : us = [] := hb
    exact .inl (List.append_nil ts)
  | true =>
    obtain ⟨t, ht, rfl⟩ := hb
    exact .inr ⟨t, ht, rfl⟩

/-- A statement, or what is skipped of it, and further ones. -/
lemma yields_oneStatement {top : Bool} {rest : Parser (List Stmt)}
    (hrest : ∀ c, W.free.Yields m c (Stmt.DerivedList W.placed top n) (rest c)) :
    W.free.Yields m c (Stmt.DerivedList W.placed top n) (oneStatement expr rest c) := by
  intro hc
  have hstatement : W.free.Outcome m c (Stmt.Ended W.placed n) (statement expr c) :=
    yields_statement (fun c => (hexpr c).free) (fun _ => trivial) hc
  unfold oneStatement
  generalize statement expr c = x at hstatement
  cases hstatement with
  | @done stmt c₁ ts fs hmove hstmt =>
    refine .after hmove (.last (hrest c₁) (fun _ _ => rfl) ?_)
    exact fun stmts c₂ us gs _ hstmts => hstmt.cons hstmts
  | @failed c₁ ts fs hmove hfs =>
    obtain ⟨us, hskip, hskipped⟩ := c₁.consumes_synchronize
    have hmoves : W.free.Moves m c true c₁.synchronize (ts ++ us) (fs ++ []) :=
      ⟨hc, hmove.read.trans hskip, by simpa using hmove.allowed, trivial⟩
    refine .after hmoves ((hrest _).imp fun {stmts vs gs} hstmts => ?_)
    simpa using Stmt.DerivedList.failed hfs hskipped hstmts

/-- The statements of a block. -/
lemma yields_blockStatements (rounds : Nat) (c : Cursor) :
    W.free.Yields m c (Stmt.DerivedList W.placed false n) (blockStatements expr rounds c) := by
  induction rounds generalizing c with
  | zero => exact .pure .nil
  | succ rounds ih =>
    rw [blockStatements_succ]
    split
    · exact .pure .nil
    · exact yields_oneStatement hexpr ih

/-- The statements of a program. -/
lemma yields_programStatements (rounds : Nat) (c : Cursor) :
    W.free.Yields m c (Stmt.DerivedList W.placed true n) (programStatements expr rounds c) := by
  induction rounds generalizing c with
  | zero => exact .pure .nil
  | succ rounds ih =>
    rw [programStatements_succ]
    split
    · exact .pure .nil
    · next hstop =>
      have hend : c.atEnd = false := by
        rw [Bool.not_eq_true, Bool.or_eq_false_iff] at hstop
        exact hstop.1
      split
      · next hbrace =>
        intro hc
        have hmove : W.free.Moves m c true (c.report .strayBrace c.span).advance
            ([] ++ [c.peek]) ([⟨.strayBrace, c.span⟩] ++ []) :=
          ⟨hc, (Cursor.Consumes.report c _ _).trans (.advance hend),
            List.forall_mem_singleton.2 (W.allowed_span hc), trivial⟩
        exact .after hmove ((ih _).imp (Stmt.DerivedList.brace (Cursor.atSymbol_iff.1 hbrace)))
      · exact yields_oneStatement hexpr ih

/-- The statements of a program, as a list and the cursor after it. -/
lemma derived_topLevel (rounds : Nat) (hc : W.knows c) :
    ∃ ts fs, c.Consumes (topLevel expr rounds c).2 ts fs ∧ (∀ f ∈ fs, W.allowed f.span) ∧
      Stmt.DerivedList W.placed true n (topLevel expr rounds c).1 ts fs := by
  have hyields := yields_programStatements hexpr rounds c hc
  unfold programStatements at hyields
  generalize topLevel expr rounds c = x at hyields
  cases hyields with
  | done hmove hderived => exact ⟨_, _, hmove.read, hmove.allowed, hderived⟩

/-- Statements between braces, if nothing is asked of moves. -/
lemma yields_block_free : W.free.Yields m c (Block.Derived W.placed n) (block expr c) := by
  refine .bind (yields_expect fun _ => trivial) ?_
  rintro t c₁ _ _ h₀ ⟨ht, rfl, rfl⟩
  have hopened := h₀.placed_token (List.mem_singleton_self t)
  refine .bind (p := fun c => blockStatements expr c.rest.length c)
    (yields_blockStatements hexpr c₁.rest.length c₁) fun stmts c₂ ts fs h₁ hstmts => ?_
  refine .last (yields_close (fun _ => trivial) (W.free.allowed_of_placed hopened))
    (fun _ _ => rfl) ?_
  rintro u c₃ _ _ h₂ ⟨hu, rfl, rfl⟩
  have hmove := h₀.trans (h₁.trans h₂)
  have hclosed := h₂.placed_token (List.mem_singleton_self u)
  rw [List.append_nil]
  exact .mk ht hstmts hu (hmove.placed_merge hopened hclosed (List.prefix_append [t] _)
    ⟨t :: ts, by simp⟩)

end Statements

/-! ### Operators -/

/-- Operands that are joined to those before them. -/
lemma yields_chain {op? : TokenKind → Option BinaryOp} {k : Nat} (hop : ReadsLevel op? k)
    {operand : Parser Expr} (hoperand : W.YieldsOperand m n (k + 1) operand) (rounds : Nat)
    {left : Expr} {c₀ c : Cursor} {ts : List Token} {fs : List Fault}
    (hmove : W.Moves m c₀ true c ts fs) (hleft : left.DerivedAt W.placed k n ts fs) :
    W.Yields m c (fun e us gs => e.DerivedAt W.placed k n (ts ++ us) (fs ++ gs))
      (chain op? operand rounds left c) := by
  induction rounds generalizing left c ts fs with
  | zero => exact .pure (by simpa using hleft)
  | succ rounds ih =>
    cases hfound : op? c.kind with
    | none =>
      rw [chain, hfound]
      exact .pure (by simpa using hleft)
    | some op =>
      obtain ⟨hkind, rfl⟩ := hop hfound
      rw [chain_succ hfound]
      refine .advance hkind rfl (Watch.admits_of_loose op.loose) fun h₁ => ?_
      refine .bind (hoperand _) fun right c₂ us gs h₂ hright => ?_
      have hmoves := hmove.trans (h₁.trans h₂)
      have hspan := hmoves.placed_merge hleft.derived.placed_span hright.derived.placed_span
        (List.prefix_append ts _) ⟨ts ++ [c.peek], by simp⟩
      have hjoined := Expr.Derived.binary ⟨hleft.tight, hright.tight⟩ hleft.derived hkind
        hright.derived hspan
      refine (ih hmoves ⟨Nat.le_refl _, hjoined⟩).imp fun {e vs hs} he => ?_
      simpa using he

/-- Operands of one level with the operators between them. -/
lemma yields_level {op? : TokenKind → Option BinaryOp} {k : Nat} (hop : ReadsLevel op? k)
    {operand : Parser Expr} (hoperand : W.YieldsOperand m n (k + 1) operand) :
    W.YieldsOperand m n k (level op? operand) := fun c =>
  .bind (hoperand c) fun _ c₁ _ _ h₁ hleft =>
    yields_chain hop hoperand c₁.rest.length h₁ (hleft.loosen (Nat.le_succ k))

/-- An expression of operands and the operators between them. -/
lemma yields_operators {operand : Parser Expr} (hoperand : W.YieldsOperand m n 5 operand) :
    W.YieldsExpr m n (operators operand) := by
  obtain ⟨heither, hboth, hcompare, hsum, hproduct⟩ := readsLevel_all
  have hproducts := yields_level hproduct hoperand
  have hsums := yields_level hsum hproducts
  have hcomparisons := yields_level hcompare hsums
  have hboths := yields_level hboth hcomparisons
  exact fun c => (yields_level heither hboths c).imp Expr.DerivedAt.derived

/-! ### Calls -/

section Calls

variable (hexpr : W.YieldsExpr m n expr)

include hexpr

/-- One or more arguments. -/
lemma yields_arguments (rounds : Nat) (c : Cursor) :
    W.Yields m c (Expr.DerivedArgs W.placed n) (arguments expr rounds c) := by
  induction rounds generalizing c with
  | zero => exact .pure .nil
  | succ rounds ih =>
    rw [arguments_succ]
    refine .bind (hexpr c) fun e c₁ ts fs h₁ he => ?_
    unfold furtherArguments
    split
    · next hcomma =>
      have hkind := Cursor.atSymbol_iff.1 hcomma
      refine .advance hkind rfl (Watch.admits_of_loose (.symbol (by decide))) fun _ => ?_
      split
      · exact .pure (.cons he hkind .nil)
      · exact .last (ih _) (fun _ _ => rfl) fun es c₂ us gs _ hes => .cons he hkind hes
    · exact .pure (by simpa using Expr.DerivedArgs.last he)

/-- The arguments of a call, if it has any. -/
lemma yields_argumentList : W.Yields m c (Expr.DerivedArgs W.placed n) (argumentList expr c) := by
  unfold argumentList
  split
  · exact .pure .nil
  · exact yields_arguments hexpr _ c

/-- One argument list after a callee. -/
lemma yields_call {callee : Expr} {c₀ : Cursor} {ts : List Token} {fs : List Fault}
    (hmove : W.Moves m c₀ true c ts fs) (hcallee : callee.DerivedAt W.placed 6 (n + 1) ts fs)
    (hkind : c.kind = .symbol .openParen) :
    W.Yields m c (fun e us gs => e.DerivedAt W.placed 6 (n + 1) (ts ++ us) (fs ++ gs))
      (call expr callee c) := by
  refine .next hkind (.symbol (by decide)) fun h₁ => ?_
  refine .bind (yields_argumentList hexpr) fun args c₂ us gs h₂ hargs => ?_
  refine .last (yields_close (Watch.admits_of_loose (.symbol (by decide)))
    (h₁.allowed_token (List.mem_singleton_self _))) (fun _ _ => rfl) ?_
  rintro u c₃ _ _ h₃ ⟨hu, rfl, rfl⟩
  have hmoves := hmove.trans (h₁.trans (h₂.trans h₃))
  have hclosed := h₃.placed_token (List.mem_singleton_self u)
  rw [List.append_nil]
  exact ⟨Nat.le_refl _, .call hcallee.tight hcallee.derived ⟨hkind, hu⟩ hargs
    (hmoves.placed_merge hcallee.derived.placed_span hclosed (List.prefix_append ts _)
      ⟨ts ++ c.peek :: us, by simp⟩)⟩

/-- The argument lists after a callee. -/
lemma yields_calls (rounds : Nat) {callee : Expr} {c₀ c : Cursor} {ts : List Token}
    {fs : List Fault} (hmove : W.Moves m c₀ true c ts fs)
    (hcallee : callee.DerivedAt W.placed 6 (n + 1) ts fs) :
    W.Yields m c (fun e us gs => e.DerivedAt W.placed 6 (n + 1) (ts ++ us) (fs ++ gs))
      (calls expr rounds callee c) := by
  induction rounds generalizing callee c ts fs with
  | zero => exact .pure (by simpa using hcallee)
  | succ rounds ih =>
    by_cases hopen : c.atSymbol .openParen
    · rw [calls_succ hopen]
      refine .bind (yields_call hexpr hmove hcallee (Cursor.atSymbol_iff.1 hopen))
        fun e c₁ us gs h₁ he => ?_
      refine (ih (hmove.trans h₁) he).imp fun {e' vs hs} he' => ?_
      simpa using he'
    · rw [calls, if_neg hopen]
      exact .pure (by simpa using hcallee)

/-- A condition between parentheses. -/
lemma yields_condition :
    W.Yields m c (fun e us fs => ∃ o c ts, us = o :: (ts ++ [c]) ∧ Parens o c ∧
      e.Derived W.placed n ts fs) (condition expr c) := by
  refine .bind (yields_expect (Watch.admits_of_loose (.symbol (by decide)))) ?_
  rintro o c₁ _ _ h₁ ⟨ho, rfl, rfl⟩
  refine .bind (hexpr c₁) fun e c₂ ts fs _ he => ?_
  refine .last (yields_close (Watch.admits_of_loose (.symbol (by decide)))
    (h₁.allowed_token (List.mem_singleton_self _))) (fun _ _ => rfl) ?_
  rintro u c₃ _ _ _ ⟨hu, rfl, rfl⟩
  rw [List.append_nil]
  exact ⟨o, u, ts, rfl, ⟨ho, hu⟩, he⟩

end Calls

/-! ### Functions -/

section Functions

variable (hwarn : ∀ {c : Cursor} {e : SyntaxError} {s : Span}, W.goes m c true (c.report e s))

include hwarn

/-- Parameters after those that were given before, if a fault may be reported on the way. -/
lemma yields_parameters (rounds : Nat) (given : List Ident) (c : Cursor) :
    W.Yields m c (fun params ts fs => ∃ new, params = given ++ new ∧ Parameters given new ts fs)
      (parameters rounds given c) := by
  induction rounds generalizing given c with
  | zero => exact .pure ⟨[], by simp, .nil⟩
  | succ rounds ih =>
    rw [parameters_succ]
    refine .bind yields_ident ?_
    rintro param c₁ ts _ h₁ ⟨hparam, rfl⟩
    have hfurther (c : Cursor) : W.Yields m c (fun params us fs => ∃ new, params = given ++ new ∧
        Parameters given new (ts ++ us) (param.repetition given ++ fs))
        (furtherParameters rounds (given ++ [param]) c) := by
      refine .bind (yields_eat (Watch.admits_of_loose (.symbol (by decide)))) ?_
      rintro comma c₂ us _ _ ⟨rfl, hus⟩
      cases comma with
      | false =>
        obtain rfl : us = [] := hus
        exact .pure ⟨[param], rfl, by simpa using Parameters.last hparam⟩
      | true =>
        obtain ⟨t, ht, rfl⟩ := hus
        refine .look ?_
        split
        · exact .pure ⟨[param], rfl, .cons hparam ht .nil⟩
        · refine (ih (given ++ [param]) c₂).imp ?_
          rintro params us fs ⟨new, rfl, hnew⟩
          exact ⟨param :: new, by simp, .cons hparam ht hnew⟩
    unfold Ident.repetition at hfurther
    split
    · next hgiven =>
      simp only [hgiven, if_true] at hfurther
      obtain ⟨t, rfl, -, hspan⟩ := hparam
      exact .warn _ (hspan ▸ h₁.allowed_token (List.mem_singleton_self t)) hwarn (hfurther _)
    · next hnew =>
      simp only [hnew] at hfurther
      exact hfurther c₁

/-- The parameters of a function up to the closing parenthesis. -/
lemma yields_parameterList : W.Yields m c (Parameters []) (parameterList c) := by
  unfold parameterList
  split
  · exact .pure .nil
  · refine (yields_parameters hwarn _ [] c).imp ?_
    rintro params ts fs ⟨new, rfl, hnew⟩
    exact hnew

/-- The parameters and the body of a function after the words before them. -/
lemma yields_functionRest (hblock : ∀ c, W.Yields m c (Block.Derived W.placed n) (block expr c))
    {name : Option Ident} {t : Token} {hs : List Token} {c₀ : Cursor} (hhead : Opening name hs)
    (hfirst : [t] <+: hs) (hmove : W.Moves m c₀ true c hs []) :
    W.Yields m c (fun e us fs => e.DerivedAt W.placed 6 (n + 1) (hs ++ us) fs)
      (functionRest expr name t.span c) := by
  refine .bind (yields_expect (Watch.admits_of_loose (.symbol (by decide)))) ?_
  rintro o c₁ _ _ h₁ ⟨ho, rfl, rfl⟩
  refine .bind (p := parameterList) (yields_parameterList hwarn) ?_
  intro params c₂ ts fs h₂ hparams
  refine .bind (yields_close (Watch.admits_of_loose (.symbol (by decide)))
    (h₁.allowed_token (List.mem_singleton_self o))) ?_
  rintro u c₃ _ _ h₃ ⟨hu, rfl, rfl⟩
  refine .last (hblock c₃) (fun _ _ => rfl) fun body c₄ us gs h₄ hbody => ?_
  have hmoves := hmove.trans (h₁.trans (h₂.trans (h₃.trans h₄)))
  have ht := hmove.placed_token (hfirst.subset (List.mem_singleton_self t))
  refine ⟨Nat.le_refl _, ?_⟩
  change Expr.Derived W.placed (n + 1) _ (hs ++ o :: (ts ++ u :: us)) (fs ++ gs)
  exact .function hhead ⟨ho, hu⟩ hparams hbody (hmoves.placed_merge ht hbody.placed_span
    (hfirst.trans (List.prefix_append hs _)) ⟨hs ++ o :: (ts ++ [u]), by simp⟩)

/-- A function without a name. -/
lemma yields_nameless (hblock : ∀ c, W.Yields m c (Block.Derived W.placed n) (block expr c))
    (hkind : c.kind = .keyword .unda) :
    W.Yields m c (Expr.DerivedAt W.placed 6 (n + 1)) (nameless expr c.span c) :=
  .next hkind (.keyword _) fun h₁ =>
    yields_functionRest hwarn hblock (t := c.peek) (.unda hkind) List.prefix_rfl h₁

/-- A function with a name. -/
lemma yields_titled (hblock : ∀ c, W.Yields m c (Block.Derived W.placed n) (block expr c))
    (hkind : c.kind = .keyword .kazi) :
    W.Yields m c (Expr.DerivedAt W.placed 6 (n + 1)) (titled expr c.span c) := by
  refine .next hkind (.keyword _) fun h₁ => .bind yields_ident ?_
  rintro name c₂ ts _ h₂ ⟨hname, rfl⟩
  exact yields_functionRest hwarn hblock (t := c.peek) (.kazi hkind hname)
    (List.prefix_append [c.peek] ts) (h₁.trans h₂)

end Functions

end Parser

/-! ### Blocks and functions -/

/-- The moves of blocks and functions are allowed. -/
structure Watch.Closed (W : Watch) : Prop where
  block : ∀ {n : Nat} {expr : Parser Expr}, W.YieldsExpr n n expr → ∀ {c : Cursor}, W.knows c →
    W.goes (n + 1) c (Parser.block expr c).1.isSome (Parser.block expr c).2
  nameless : ∀ {n : Nat} {expr : Parser Expr}, W.YieldsExpr n n expr → ∀ {c : Cursor},
    W.knows c → c.kind = .keyword .unda →
    W.goes (n + 1) c (Parser.nameless expr c.span c).1.isSome (Parser.nameless expr c.span c).2
  titled : ∀ {n : Nat} {expr : Parser Expr}, W.YieldsExpr n n expr → ∀ {c : Cursor},
    W.knows c → c.kind = .keyword .kazi →
    W.goes (n + 1) c (Parser.titled expr c.span c).1.isSome (Parser.titled expr c.span c).2

/-- Nothing has to be said of blocks and functions where spans alone are watched. -/
lemma Placement.watch_closed (P : Placement) : P.watch.Closed where
  block _ _ _ := trivial
  nameless _ _ _ _ := trivial
  titled _ _ _ _ := trivial

namespace Parser

section Operands

variable {W : Watch} {n : Nat} {c : Cursor} {expr : Parser Expr} (hW : W.Closed)
  (hexpr : W.YieldsExpr n n expr)

include hW hexpr

/-- Statements between braces. -/
lemma yields_block : W.Yields (n + 1) c (Block.Derived W.placed n) (block expr c) := fun hc =>
  (yields_block_free (m := n) hexpr hc).of_free (hW.block hexpr hc)

/-- A conditional with its alternatives.  The rounds are enough because every one reads a token. -/
lemma yields_conditional (rounds : Nat) (hkind : c.kind = .keyword .kama)
    (hrounds : c.rest.length ≤ rounds) :
    W.Yields (n + 1) c (Conditional.Derived W.placed n) (conditional expr rounds c) := by
  have hexpr' : W.YieldsExpr (n + 1) n expr := fun c => (hexpr c).succ
  induction rounds generalizing c with
  | zero =>
    have hlength := Cursor.length_advance_lt (c.rest_ne_nil (congrArg TokenKind.isEnd hkind))
    omega
  | succ rounds ih =>
    rw [conditional_succ]
    refine .next hkind (.keyword _) fun h₁ => ?_
    refine .bind (yields_condition hexpr') ?_
    rintro e c₂ _ fs h₂ ⟨o, u, ts, rfl, hparens, he⟩
    refine .bind (yields_block hW hexpr) fun yes c₃ us gs h₃ hyes => ?_
    have hmove := h₁.trans (h₂.trans h₃)
    rw [alternative, look_andThen]
    split
    · next helse =>
      have hsivyo := Cursor.atKeyword_iff.1 helse
      refine .next hsivyo (.keyword _) fun h₄ => ?_
      rw [otherwise, look_andThen]
      split
      · next hif =>
        -- the word `sivyo` was read in this round, so that one round less is enough
        have hlength := (hmove.trans h₄).read.length_eq
        refine .last (ih (Cursor.atKeyword_iff.1 hif) ?_) (fun _ _ => rfl) ?_
        · simp only [List.length_append, List.length_cons] at hlength
          omega
        · intro next c₅ vs hs h₅ hnext
          have hmoves := hmove.trans (h₄.trans h₅)
          simp only [List.append_assoc, List.cons_append, List.nil_append] at hmoves ⊢
          exact .elseIf hkind hparens he hyes hsivyo hnext hmoves.placed_previous
      · refine .last (yields_block hW hexpr) (fun _ _ => rfl) fun no c₅ vs hs h₅ hno => ?_
        have hmoves := hmove.trans (h₄.trans h₅)
        simp only [List.append_assoc, List.cons_append, List.nil_append] at hmoves ⊢
        exact .ifElse hkind hparens he hyes hsivyo hno hmoves.placed_previous
    · refine .pure ?_
      simp only [List.append_assoc, List.cons_append, List.nil_append, List.append_nil] at hmove ⊢
      exact .ifThen hkind hparens he hyes hmove.placed_previous

/-- A loop. -/
lemma yields_loop (hkind : c.kind = .keyword .wakati) :
    W.Yields (n + 1) c (Expr.DerivedAt W.placed 6 (n + 1)) (loop expr c) := by
  have hexpr' : W.YieldsExpr (n + 1) n expr := fun c => (hexpr c).succ
  refine .next hkind (.keyword _) fun h₁ => ?_
  refine .bind (yields_condition hexpr') ?_
  rintro e c₂ _ fs h₂ ⟨o, u, ts, rfl, hparens, he⟩
  refine .last (yields_block hW hexpr) (fun _ _ => rfl) fun body c₃ us gs h₃ hbody => ?_
  have hmove := h₁.trans (h₂.trans h₃)
  simp only [List.append_assoc, List.cons_append, List.nil_append] at hmove ⊢
  exact ⟨Nat.le_refl _, .loop hkind hparens he hbody hmove.placed_previous⟩

omit hW in
/-- An expression between parentheses. -/
lemma yields_parenthesized (hkind : c.kind = .symbol .openParen) :
    W.Yields (n + 1) c (Expr.DerivedAt W.placed 6 (n + 1)) (parenthesized expr c.span c) := by
  refine .next hkind (.symbol (by decide)) fun h₁ => ?_
  have hopened := h₁.placed_token (List.mem_singleton_self _)
  refine .bind (hexpr _).succ fun inner c₂ ts fs h₂ hinner => ?_
  refine .last (yields_close (Watch.admits_of_loose (.symbol (by decide)))
    (W.allowed_of_placed hopened)) (fun _ _ => rfl) ?_
  rintro u c₃ _ _ h₃ ⟨hu, rfl, rfl⟩
  have hmove := h₁.trans (h₂.trans h₃)
  rw [List.append_nil]
  have hclosed := h₃.placed_token (List.mem_singleton_self u)
  exact ⟨Nat.le_refl _, .paren ⟨hkind, hu⟩ hinner (hmove.placed_merge hopened hclosed
    (List.prefix_append [c.peek] _) ⟨c.peek :: ts, by simp⟩)⟩

/-- An operand that begins with its own sign or word. -/
lemma yields_primary : W.Yields (n + 1) c (Expr.DerivedAt W.placed 6 (n + 1)) (primary expr c) := by
  unfold primary
  dsimp only
  split
  · next h => exact .token h (.number _) fun hspan => ⟨Nat.le_refl _, .number h hspan⟩
  · next h => exact .token h (.text _) fun hspan => ⟨Nat.le_refl _, .text h hspan⟩
  · next h => exact .token h (.name _) fun hspan => ⟨Nat.le_refl _, .name h hspan⟩
  · next h => exact .token h (.keyword _) fun hspan => ⟨Nat.le_refl _, .boolean h hspan⟩
  · next h => exact .token h (.keyword _) fun hspan => ⟨Nat.le_refl _, .boolean h hspan⟩
  · next h => exact .token h (.keyword _) fun hspan => ⟨Nat.le_refl _, .null h hspan⟩
  · next h => exact yields_parenthesized hexpr h
  · next h =>
    exact .last (yields_conditional hW hexpr _ h (Nat.le_refl _)) (fun _ _ => rfl)
      fun _ _ _ _ _ hbranches => ⟨Nat.le_refl _, .conditional hbranches⟩
  · next h => exact yields_loop hW hexpr h
  · next h =>
    -- a parameter that is repeated is a matter of the watch alone
    exact fun hc => (yields_nameless (W := W.free) (m := n) trivial
      (fun _ => yields_block_free hexpr) h hc).of_free (hW.nameless hexpr hc h)
  · next h =>
    exact fun hc => (yields_titled (W := W.free) (m := n) trivial
      (fun _ => yields_block_free hexpr) h hc).of_free (hW.titled hexpr hc h)
  · exact .failHere _

/-- A sign before an operand, or an operand with its calls. -/
lemma yields_prefixed {below : Parser Expr} (hbelow : W.YieldsOperand n n 5 below) :
    W.YieldsOperand (n + 1) (n + 1) 5 (prefixed below expr) := by
  intro c
  cases hop : unaryOp? c.kind with
  | some op =>
    have hkind := kind_of_unaryOp hop
    rw [prefixed, hop]
    refine .next hkind op.loose fun h₁ => ?_
    refine .last (hbelow _).succ (fun _ _ => rfl) fun operand c₂ ts fs h₂ hoperand => ?_
    have hspan := (h₁.trans h₂).placed_merge (h₁.placed_token (List.mem_singleton_self _))
      hoperand.derived.placed_span (List.prefix_append [c.peek] _) (List.suffix_cons _ ts)
    exact ⟨Nat.le_refl _, .unary hoperand.tight hkind hoperand.derived hspan⟩
  | none =>
    rw [prefixed_of_none hop]
    refine .bind (yields_primary hW hexpr) fun e c₁ ts fs h₁ he => ?_
    have hcalls := yields_calls (fun c => (hexpr c).succ) c₁.rest.length h₁ he
    exact hcalls.imp fun he' => he'.loosen (Nat.le_succ 5)

end Operands

/-! ### Expressions -/

variable {W : Watch} (hW : W.Closed)

/-- No level is left. -/
lemma yields_tooDeep {m : Nat} {c : Cursor} {Q : Expr → List Token → List Fault → Prop} :
    W.Yields m c Q (tooDeep c) := .failHere _

include hW

/-- An operand with levels left below it. -/
lemma yields_operand (levels : Nat) :
    W.YieldsOperand (levels + 1) (levels + 1) 5 (operand levels) := by
  induction levels with
  | zero => exact yields_prefixed hW (fun _ => yields_tooDeep) fun _ => yields_tooDeep
  | succ levels ih => exact yields_prefixed hW (yields_operators ih) ih

/-- An expression with levels left for it. -/
lemma yields_expression (levels : Nat) : W.YieldsExpr levels levels (expression levels) := by
  cases levels with
  | zero => exact fun _ => yields_tooDeep
  | succ levels => exact yields_operators (yields_operand hW levels)

omit hW in
/-- An expression, where nothing is watched. -/
lemma derives_expression (levels : Nat) :
    Placement.any.watch.YieldsExpr levels levels (expression levels) :=
  yields_expression Placement.any.watch_closed levels

/-! ### Programs -/

omit hW in
/-- Reading a program goes on to the end or until the error list is full.  The rounds are enough
because every statement has a token, and one that cannot be read is skipped with a token at least.
-/
lemma programStatements_stops {m n : Nat} {expr : Parser Expr}
    (hexpr : Placement.any.watch.YieldsExpr m n expr) {rounds : Nat} {c : Cursor}
    (hrounds : c.rest.length ≤ rounds) :
    (programStatements expr rounds c).2.atEnd ∨
      (programStatements expr rounds c).2.faults.isFull := by
  induction rounds generalizing c with
  | zero =>
    have hnil : c.rest = [] := List.length_eq_zero_iff.1 (Nat.le_zero.1 hrounds)
    left
    simp [programStatements, topLevel, Cursor.atEnd, Cursor.kind, Cursor.peek, hnil,
      TokenKind.isEnd]
  | succ rounds ih =>
    rw [programStatements_succ]
    split
    · next hstop => exact (Bool.or_eq_true _ _).mp hstop
    · next hgoes =>
      simp only [Bool.or_eq_true, not_or, Bool.not_eq_true] at hgoes
      split
      · have hlength := Cursor.length_advance_lt
          (Cursor.rest_ne_nil (c := c.report .strayBrace c.span) hgoes.1)
        exact ih (Nat.le_of_lt_succ (Nat.lt_of_lt_of_le hlength hrounds))
      · next hbrace =>
        have hstatement := yields_statement hexpr (fun _ => trivial) (c := c) trivial
        unfold oneStatement
        generalize statement expr c = x at hstatement
        rcases x with ⟨_ | stmt, c₁⟩
        · have hlength := Cursor.length_synchronize_lt hstatement.onward hgoes.1
            (Bool.not_eq_true _ ▸ hbrace)
          exact ih (Nat.le_of_lt_succ (Nat.lt_of_lt_of_le hlength hrounds))
        · have hlength := hstatement.length_lt Stmt.Ended.ne_nil
          exact ih (c := c₁) (Nat.le_of_lt_succ (Nat.lt_of_lt_of_le hlength hrounds))

end Parser

end Lugha
