import Lugha.Proofs.Abreast
import Lugha.Proofs.Rounds

/-!
# The parser on equal beginnings

Every parser of the grammar keeps two runs abreast.  There is one lemma for each parser, in the
order in which they are defined.  The parsers of statements and operands take the parser of
expressions as an argument, and so do their lemmas; `Comparison.parallel_expression` closes the
circle by recursion on the levels that are left.

A loop takes one round for each token at most, so rounds never run out before the tokens do.

A `Watch` looks at one run, and what it sees of each of two runs does not tell that they go
together. So this is a second way through the parser.  It is made once for all comparisons.
-/

namespace Lugha

open Lugha.Parser

namespace Comparison

variable {S : Comparison} {n n' : Nat} {start : Prop} {expr : Parser Expr}

/-- The same is seen of where two expressions stand. -/
lemma view_span {e e' : Expr} (h : e.mapSpans S.view = e'.mapSpans S.view) :
    S.view e.span = S.view e'.span := by
  simpa using congrArg Expr.span h

/-- The same is seen of where two blocks stand. -/
lemma view_span_block {b b' : Block} (h : b.mapSpans S.view = b'.mapSpans S.view) :
    S.view b.span = S.view b'.span := by
  simpa using congrArg Block.span h

/-- The same is seen of where two names stand. -/
lemma view_span_ident {i i' : Ident} (h : i.mapSpans S.view = i'.mapSpans S.view) :
    S.view i.span = S.view i'.span :=
  congrArg Ident.span h

/-- Names of which the same is seen are one. -/
lemma name_eq {i i' : Ident} (h : i.mapSpans S.view = i'.mapSpans S.view) : i.name = i'.name := by
  simpa using congrArg Ident.name h

/-- The same is seen of where two tokens stand. -/
lemma view_span_token {t t' : Token} (h : S.token t = S.token t') :
    S.view t.span = S.view t'.span :=
  congrArg Prod.snd h

/-- Parsers of expressions that keep two runs abreast. -/
abbrev UniformExpr (S : Comparison) (p : Parser Expr) : Prop :=
  ∀ n n', S.Parallel n n' False true (Expr.mapSpans S.view) p p

/-- Parsers of statements that keep two runs abreast. -/
abbrev UniformStmt (S : Comparison) (p : Parser Stmt) : Prop :=
  ∀ n n', S.Parallel n n' False true (Stmt.mapSpans S.view) p p

/-! ### Statements -/

section Statements

variable (hexpr : S.UniformExpr expr)

include hexpr

/-- Binding a name. -/
lemma parallel_binding :
    S.Parallel n n' start true (Stmt.mapSpans S.view) (binding expr) (binding expr) := by
  unfold binding
  refine parallel_next.andThen fun t t' ht => .forget ?_
  refine parallel_ident.andThen fun i i' hi => .forget ?_
  refine (parallel_expect .assign).andThen fun _ _ _ => .forget ?_
  refine (hexpr _ _).anywhere.andThen fun e e' he => .pure ?_
  have hspan := S.view_merge (view_span_token ht) (view_span he)
  simp only [Stmt.mapSpans, Expr.mapSpans_named, hspan, hi, he]

/-- Assigning to a name. -/
lemma parallel_assignment :
    S.Parallel n n' start true (Stmt.mapSpans S.view) (assignment expr) (assignment expr) := by
  unfold assignment
  refine parallel_ident.andThen fun i i' hi => .forget ?_
  refine (parallel_expect .assign).andThen fun _ _ _ => .forget ?_
  refine (hexpr _ _).anywhere.andThen fun e e' he => .pure ?_
  have hspan := S.view_merge (view_span_ident hi) (view_span he)
  simp only [Stmt.mapSpans, hspan, hi, he]

/-- Returning from a function. -/
lemma parallel_returning :
    S.Parallel n n' start true (Stmt.mapSpans S.view) (returning expr) (returning expr) := by
  have hends {moved : Prop} {c c' : Cursor} (h : S.Abreast moved c c') (hlost : ¬ S.lost c) :
      endsReturn c = endsReturn c' := by
    simp [endsReturn, h.atSymbol_eq hlost, h.atEnd_eq hlost]
  unfold returning
  refine parallel_next.andThen fun t t' ht => ?_
  refine (parallel_look hends).andThen_idle fun b b' hb => ?_
  obtain rfl : b = b' := hb
  cases b with
  | true =>
    refine .pure ?_
    simp only [Stmt.mapSpans, view_span_token ht]
  | false =>
    refine .forget ((hexpr _ _).anywhere.andThen fun e e' he => .pure ?_)
    have hspan := S.view_merge (view_span_token ht) (view_span he)
    simp only [Stmt.mapSpans, hspan, he]

/-- An expression that stands as a statement. -/
lemma parallel_bare :
    S.Parallel n n' start true (Stmt.mapSpans S.view) (bare expr) (bare expr) := by
  unfold bare
  refine (hexpr _ _).anywhere.andThen fun e e' he => ?_
  refine (parallel_look fun h hlost => (h.atSymbol_eq hlost .assign).symm).andThen_idle
    fun b b' hb => ?_
  obtain rfl : b = b' := hb
  cases b with
  | true => exact parallel_failAt _ (view_span he)
  | false =>
    refine .pure ?_
    simp only [Stmt.mapSpans, he]

omit hexpr in
/-- Both runs see together whether a name is assigned to. -/
lemma assigns_eq {c c' : Cursor} (h : S.Abreast start c c') (hlost : ¬ S.lost c) :
    assigns c' = assigns c := by
  obtain ⟨⟨k, s⟩, ⟨k', s'⟩, ts, ts', hts, hts', hkind, -, hrest, hname⟩ := h.next hlost
  obtain rfl : k = k' := hkind
  cases k with
  | name n =>
    cases hrest with
    | tail => exact absurd (hname n rfl) (Nat.lt_irrefl _)
    | @cons t t' us us' hkind =>
      rcases t with ⟨l, r⟩
      rcases t' with ⟨l', r'⟩
      obtain rfl : l = l' := hkind
      simp only [assigns, hts, hts']
      cases l with
      | symbol s => cases s <;> rfl
      | _ => rfl
  | _ => simp only [assigns, hts, hts']

/-- A statement up to its semicolon. -/
lemma parallel_unterminated :
    S.Parallel n n' start true (Stmt.mapSpans S.view) (unterminated expr) (unterminated expr) := by
  have hother : S.Parallel n n' start true (Stmt.mapSpans S.view)
      (fun c => if assigns c then assignment expr c else bare expr c)
      (fun c => if assigns c then assignment expr c else bare expr c) :=
    parallel_ite assigns_eq (parallel_assignment hexpr) (parallel_bare hexpr)
  refine parallel_of_kind fun k => ?_
  cases k with
  | keyword w =>
    cases w with
    | fanya => exact ⟨_, fun c hc => by rw [unterminated, hc], parallel_binding hexpr⟩
    | rudisha => exact ⟨_, fun c hc => by rw [unterminated, hc], parallel_returning hexpr⟩
    | vunja =>
      refine ⟨_, fun c hc => by rw [unterminated, hc], parallel_leaf fun s s' hs => ?_⟩
      simp only [Stmt.mapSpans, hs]
    | endelea =>
      refine ⟨_, fun c hc => by rw [unterminated, hc], parallel_leaf fun s s' hs => ?_⟩
      simp only [Stmt.mapSpans, hs]
    | _ => exact ⟨_, fun c hc => by rw [unterminated, hc], hother⟩
  | _ => exact ⟨_, fun c hc => by rw [unterminated, hc], hother⟩

/-- A statement and its semicolon. -/
lemma parallel_statement :
    S.Parallel n n' start true (Stmt.mapSpans S.view) (statement expr) (statement expr) := by
  unfold statement
  refine (parallel_unterminated hexpr).andThen fun s s' hs => ?_
  exact (parallel_eat .semicolon).andThen_idle fun _ _ _ => .pure hs

omit hexpr in
/-- Skipping in both runs. They stop at the same place of the common beginning, unless there is no
semicolon in what is left of it. -/
lemma resume_abreast {faults faults' : ErrorList Fault} (hfaults : S.faults faults faults')
    {ts ts' : List Token} (h : S.Rest ts ts') (moved : Bool) (previous previous' : Span) :
    S.Abreast False (Cursor.resume faults moved previous ts)
        (Cursor.resume faults' moved previous' ts') ∨
      S.lost (Cursor.resume faults moved previous ts) ∧ ¬ S.SemicolonAhead ts := by
  induction h generalizing moved previous previous' with
  | tail =>
    refine .inr ⟨S.lost_of_length_le (Cursor.Onward.resume ..).length_le, ?_⟩
    rintro ⟨us, t, vs, htail, -, hlength⟩
    have hall := congrArg List.length htail
    simp only [List.length_append, List.length_cons] at hall
    omega
  | @cons t t' ts ts' hkind hspan hname hrest ih =>
    have hcons : S.Rest (t :: ts) (t' :: ts') := .cons hkind hspan hname hrest
    unfold Cursor.resume
    rw [← hkind]
    split
    · exact .inl ⟨hcons, False.elim, hfaults⟩
    · exact .inl ⟨hrest, False.elim, hfaults⟩
    · exact .inl ⟨hcons, False.elim, hfaults⟩
    · next hsemicolon _ =>
      split
      · exact .inl ⟨hcons, False.elim, hfaults⟩
      · refine (ih true t.span t'.span).imp_right fun ⟨hlost, hnone⟩ => ⟨hlost, fun hahead => ?_⟩
        exact hnone (hahead.of_cons hsemicolon)

/-- Reading statements goes on. -/
lemma onward_oneStatement {rest : Parser (List Stmt)} (hrest : ∀ c : Cursor, c.Onward (rest c).2)
    (c : Cursor) : c.Onward (oneStatement expr rest c).2 := by
  have hstatement : S.UniformStmt (statement expr) := fun _ _ => parallel_statement hexpr
  have honward := (hstatement 0 0).onward c
  unfold oneStatement
  generalize statement expr c = x at honward
  rcases x with ⟨_ | s, c₁⟩
  · exact honward.trans ((Cursor.Onward.synchronize c₁).trans (hrest _))
  · exact honward.trans (Parallel.onward_andThen hrest (fun _ c => .refl c) c₁)

/-- One statement and then further ones, in both runs. -/
lemma oneStatement_outcome {rest rest' : Parser (List Stmt)} {c c' : Cursor}
    (hrest : S.Parallel n n' False false (Stmt.mapSpansList S.view) rest rest')
    (h : S.Abreast False c c') (hn : c.rest.length ≤ n + 1) (hn' : c'.rest.length ≤ n' + 1)
    (hlost : ¬ S.lost c) (hend : c.atEnd = false) (hbrace : c.atSymbol .closeBrace = false) :
    S.Outcome False (Stmt.mapSpansList S.view) (oneStatement expr rest c)
      (oneStatement expr rest' c') := by
  have hstatement : S.Parallel (n + 1) (n' + 1) False true _ (statement expr) (statement expr) :=
    parallel_statement hexpr
  have hnext {c₁ c₁' : Cursor} (h₁ : S.Abreast False c₁ c₁')
      (hshorter : c₁.rest.length < c.rest.length) :
      S.Outcome False (Stmt.mapSpansList S.view) (rest c₁) (rest' c₁') := by
    obtain ⟨hlength, hlength'⟩ := h.length_le h₁ hn hn' hshorter
    exact (hrest.agree h₁ hlength hlength').mono .inr fun _ _ => id
  have hx := hstatement.agree h hn hn'
  have honward := hstatement.onward c
  unfold oneStatement
  generalize hy : statement expr c = x at hx honward ⊢
  generalize statement expr c' = x' at hx ⊢
  cases hx with
  | @ok s s' c₁ c₁' hs h₁ =>
    have hfurther := hnext (h₁.mono False.elim) (hstatement.shorter rfl hn hy (h.ne_nil hlost))
    refine hfurther.andThen (fun _ c => .refl c) fun _ hss h₂ => .ok ?_ h₂
    rw [Stmt.mapSpansList, Stmt.mapSpansList, hs, hss]
  | @fail c₁ c₁' h₁ =>
    rcases resume_abreast h₁.faults h₁.rest false c₁.previous c₁'.previous with h₂ | ⟨hlost, -⟩
    · exact hnext h₂ (Cursor.length_synchronize_lt honward hend hbrace)
    · exact .lost (S.lost_of_onward (hrest.onward _) hlost)
  | @lost x x' hlost =>
    rcases x with ⟨_ | s, c₁⟩
    · have hskip := S.lost_of_onward (Cursor.Onward.synchronize c₁) hlost
      exact .lost (S.lost_of_onward (hrest.onward _) hskip)
    · exact .lost (S.lost_of_onward
        (Parallel.onward_andThen hrest.onward (fun _ c => .refl c) c₁) hlost)

/-- The statements of a block. -/
lemma parallel_blockStatements (n n' : Nat) :
    S.Parallel n n' False false (Stmt.mapSpansList S.view) (blockStatements expr n)
      (blockStatements expr n') := by
  induction n generalizing n' with
  | zero => exact .exhausted fun c => .refl c
  | succ n ih =>
    refine .of_step (fun m' => ?_) n'
    have honward (c : Cursor) : c.Onward (blockStatements expr (n + 1) c).2 := by
      rw [blockStatements_succ]
      split
      · exact .refl c
      · exact onward_oneStatement hexpr (ih 0).onward c
    refine ⟨honward, (fun h => nomatch h), fun {c c'} h hn hn' => ?_⟩
    refine .of_onward (honward c) fun hlost => ?_
    rw [blockStatements_succ, blockStatements_succ, h.atSymbol_eq hlost, h.atEnd_eq hlost,
      ← S.isFull h.faults hlost]
    split
    · exact .ok rfl (h.mono fun hm => hm.elim (fun h => nomatch h) id)
    · next hstop =>
      simp only [Bool.or_eq_true, not_or, Bool.not_eq_true] at hstop
      have hx := oneStatement_outcome hexpr (ih m') h hn hn' hlost hstop.1.2 hstop.1.1
      exact hx.mono (fun hm => hm.elim (fun h => nomatch h) id) fun _ _ => id

/-- A block. -/
lemma parallel_block :
    S.Parallel n n' start true (Block.mapSpans S.view) (block expr) (block expr) := by
  unfold block
  refine (parallel_expect .openBrace).andThen fun o o' ho => .forget (.anywhere ?_)
  refine (Parallel.of_rounds (parallel_blockStatements hexpr)).andThen_idle fun ss ss' hss => ?_
  refine (parallel_close .closeBrace (view_span_token ho)).andThen fun t t' ht => .pure ?_
  have hspan := S.view_merge (view_span_token ho) (view_span_token ht)
  simp only [Block.mapSpans, hspan, hss]

end Statements

/-! ### Operators -/

section Operators

variable {op? : TokenKind → Option BinaryOp} {operand : Parser Expr}
  (hoperand : S.UniformExpr operand)

include hoperand

/-- Joining operands to those before them. -/
lemma parallel_chain (n n' : Nat) {left left' : Expr}
    (hleft : left.mapSpans S.view = left'.mapSpans S.view) :
    S.Parallel n n' True false (Expr.mapSpans S.view) (chain op? operand n left)
      (chain op? operand n' left') := by
  induction n generalizing n' left left' with
  | zero => exact .exhausted fun c => .refl c
  | succ n ih =>
    refine .of_step (f := fun m' => chain op? operand m' left')
      (fun m' => parallel_of_kinds fun k => ?_) n'
    cases hop : op? k with
    | none =>
      refine ⟨pure left, pure left', fun c hc => ?_, .pure hleft⟩
      rw [chain, chain, hc, hop]
      exact ⟨rfl, rfl⟩
    | some op =>
      refine ⟨next >>= fun _ => operand >>= fun right => chain op? operand n (join op left right),
        next >>= fun _ => operand >>= fun right => chain op? operand m' (join op left' right),
        fun c hc => ⟨chain_succ (hc ▸ hop), chain_succ (hc ▸ hop)⟩, ?_⟩
      refine .forget (parallel_next.andThen fun _ _ _ => .forget ?_)
      refine (hoperand _ _).anywhere.andThen fun right right' hright => ?_
      have hspan := S.view_merge (view_span hleft) (view_span hright)
      refine (ih m' ?_).mono (Nat.sub_le _ _) (Nat.sub_le _ _)
      simp only [join, Expr.mapSpans, hspan, hleft, hright]

/-- Operands of one level. -/
lemma parallel_level : S.UniformExpr (level op? operand) := fun n n' =>
  (hoperand n n').andThen fun _ _ hleft => .of_rounds fun _ _ => parallel_chain hoperand _ _ hleft

/-- Expressions with operators of all levels. -/
lemma parallel_operators : S.UniformExpr (operators operand) := by
  unfold operators
  exact parallel_level (parallel_level (parallel_level (parallel_level (parallel_level hoperand))))

end Operators

/-! ### Calls -/

section Calls

variable (hexpr : S.UniformExpr expr)

include hexpr

omit hexpr in
/-- What follows an argument. -/
lemma parallel_furtherArguments {e e' : Expr} (he : e.mapSpans S.view = e'.mapSpans S.view)
    (hrest : S.Parallel n n' False true (Expr.mapSpansList S.view) (arguments expr n)
      (arguments expr n')) :
    S.Parallel n n' True false (Expr.mapSpansList S.view) (furtherArguments expr n e)
      (furtherArguments expr n' e') := by
  have hlast {m m' : Nat} : S.Parallel m m' True false (Expr.mapSpansList S.view)
      (pure [e] : Parser (List Expr)) (pure [e']) := by
    refine .pure ?_
    simp only [Expr.mapSpansList, he]
  have hmore : S.Parallel n n' True true (Expr.mapSpansList S.view)
      (next >>= fun _ c => if c.atSymbol .closeParen then (pure [e] : Parser (List Expr)) c
        else (arguments expr n >>= fun es => pure (e :: es) : Parser (List Expr)) c)
      (next >>= fun _ c => if c.atSymbol .closeParen then (pure [e'] : Parser (List Expr)) c
        else (arguments expr n' >>= fun es => pure (e' :: es) : Parser (List Expr)) c) := by
    refine parallel_next.andThen fun _ _ _ => ?_
    refine parallel_ite (fun h hlost => h.atSymbol_eq hlost .closeParen) hlast (.forget ?_)
    have hothers := hrest.mono (Nat.sub_le n 1) (Nat.sub_le n' 1)
    refine hothers.anywhere.andThen fun es es' hes => .pure ?_
    simp only [Expr.mapSpansList, he, hes]
  exact parallel_ite (fun h hlost => h.atSymbol_eq hlost .comma) hmore.forget hlast

/-- One or more arguments. -/
lemma parallel_arguments (n n' : Nat) :
    S.Parallel n n' False true (Expr.mapSpansList S.view) (arguments expr n)
      (arguments expr n') := by
  induction n generalizing n' with
  | zero => exact .exhausted fun c => .refl c
  | succ n ih =>
    refine .of_step (fun m' => ?_) n'
    rw [arguments_succ, arguments_succ]
    exact (hexpr _ _).andThen fun e e' he => parallel_furtherArguments he (ih m')

/-- The arguments of a call. -/
lemma parallel_argumentList : S.Parallel n n' True false (Expr.mapSpansList S.view)
    (argumentList expr) (argumentList expr) :=
  parallel_ite (fun h hlost => h.atSymbol_eq hlost .closeParen) (p := pure []) (.pure rfl)
    (.forget (.anywhere (.of_rounds (parallel_arguments hexpr))))

/-- One argument list after a callee. -/
lemma parallel_call {callee callee' : Expr}
    (hcallee : callee.mapSpans S.view = callee'.mapSpans S.view) :
    S.Parallel n n' start true (Expr.mapSpans S.view) (call expr callee) (call expr callee') := by
  unfold call
  refine parallel_next.andThen fun o o' ho => ?_
  refine (parallel_argumentList hexpr).andThen_idle fun args args' hargs => .forget ?_
  refine (parallel_close .closeParen (view_span_token ho)).andThen fun t t' ht => .pure ?_
  have hspan := S.view_merge (view_span hcallee) (view_span_token ht)
  simp only [Expr.mapSpans, hspan, hcallee, hargs]

/-- Argument lists after a callee. -/
lemma parallel_calls (n n' : Nat) {callee callee' : Expr}
    (hcallee : callee.mapSpans S.view = callee'.mapSpans S.view) :
    S.Parallel n n' True false (Expr.mapSpans S.view) (calls expr n callee)
      (calls expr n' callee') := by
  have hround (n : Nat) (callee : Expr) : calls expr (n + 1) callee = fun c =>
      if c.atSymbol .openParen then (call expr callee >>= calls expr n) c
      else (pure callee : Parser Expr) c := by
    funext c
    split
    · next hopen => exact calls_succ hopen
    · next hopen => rw [calls, if_neg hopen]; rfl
  induction n generalizing n' callee callee' with
  | zero => exact .exhausted fun c => .refl c
  | succ n ih =>
    refine .of_step (f := fun m' => calls expr m' callee') (fun m' => ?_) n'
    rw [hround, hround]
    refine parallel_ite (fun h hlost => h.atSymbol_eq hlost .openParen) (.forget ?_) (.pure hcallee)
    exact (parallel_call hexpr hcallee).andThen fun _ _ he => ih m' he

end Calls

/-! ### Operands -/

section Operands

variable (hexpr : S.UniformExpr expr)

include hexpr

/-- A condition between parentheses. -/
lemma parallel_condition :
    S.Parallel n n' start true (Expr.mapSpans S.view) (condition expr) (condition expr) := by
  unfold condition
  refine (parallel_expect .openParen).andThen fun o o' ho => .forget ?_
  refine (hexpr _ _).anywhere.andThen fun e e' he => .forget ?_
  exact (parallel_close .closeParen (view_span_token ho)).andThen fun _ _ _ => .pure he

omit hexpr in
/-- A result that ends with the token read last. -/
lemma parallel_ended {α γ : Type} {v : α → γ} {g g' : Span → α}
    (hg : ∀ s s', S.view s = S.view s' → v (g s) = v (g' s')) :
    S.Parallel n n' True false v (look (·.previous) >>= fun s => pure (g s))
      (look (·.previous) >>= fun s => pure (g' s)) :=
  parallel_previous.andThen_idle fun s s' hs => .pure (hg s s' hs)

/-- A loop. -/
lemma parallel_loop :
    S.Parallel n n' start true (Expr.mapSpans S.view) (loop expr) (loop expr) := by
  unfold loop
  refine parallel_next.andThen fun t t' ht => .forget ?_
  refine (parallel_condition hexpr).andThen fun e e' he => .forget ?_
  refine (parallel_block hexpr).andThen fun b b' hb => parallel_ended fun s s' hs => ?_
  simp only [Expr.mapSpans, S.view_merge (view_span_token ht) hs, he, hb]

section Branches

variable {t t' : Token} {e e' : Expr} {yes yes' : Block} (ht : S.token t = S.token t')
  (he : e.mapSpans S.view = e'.mapSpans S.view) (hyes : yes.mapSpans S.view = yes'.mapSpans S.view)
  (hrest : S.Parallel n n' False true (Conditional.mapSpans S.view) (conditional expr n)
    (conditional expr n'))

include ht he hyes hrest

/-- What follows `sivyo`. -/
lemma parallel_otherwise :
    S.Parallel n n' True false (Conditional.mapSpans S.view) (otherwise expr n t e yes)
      (otherwise expr n' t' e' yes') := by
  unfold otherwise
  refine (parallel_look fun h hlost => (h.atKeyword_eq hlost .kama).symm).andThen_idle
    fun b b' hb => ?_
  obtain rfl : b = b' := hb
  cases b with
  | false =>
    refine .forget ((parallel_block hexpr).andThen fun no no' hno => ?_)
    refine parallel_ended fun s s' hs => ?_
    simp only [Conditional.mapSpans, S.view_merge (view_span_token ht) hs, he, hyes, hno]
  | true =>
    refine .forget (hrest.anywhere.andThen fun next next' hnext => ?_)
    refine parallel_ended fun s s' hs => ?_
    simp only [Conditional.mapSpans, S.view_merge (view_span_token ht) hs, he, hyes, hnext]

/-- What follows the first block of a conditional. -/
lemma parallel_alternative :
    S.Parallel n n' True false (Conditional.mapSpans S.view) (alternative expr n t e yes)
      (alternative expr n' t' e' yes') := by
  unfold alternative
  refine (parallel_look fun h hlost => (h.atKeyword_eq hlost .sivyo).symm).andThen_idle
    fun b b' hb => ?_
  obtain rfl : b = b' := hb
  cases b with
  | false =>
    refine parallel_ended fun s s' hs => ?_
    simp only [Conditional.mapSpans, S.view_merge (view_span_token ht) hs, he, hyes]
  | true =>
    refine .forget (parallel_next.andThen fun _ _ _ => ?_)
    exact (parallel_otherwise hexpr ht he hyes hrest).mono (Nat.sub_le n 1) (Nat.sub_le n' 1)

end Branches

/-- A conditional.  The word `kama` is read in every round, so that one round less is enough for
what follows. -/
lemma parallel_conditional (n n' : Nat) :
    S.Parallel n n' False true (Conditional.mapSpans S.view) (conditional expr n)
      (conditional expr n') := by
  induction n generalizing n' with
  | zero => exact .exhausted fun c => .refl c
  | succ n ih =>
    refine .of_step (fun m' => ?_) n'
    rw [conditional_succ, conditional_succ]
    refine parallel_next.andThen fun t t' ht => .forget ?_
    refine (parallel_condition hexpr).andThen fun e e' he => .forget ?_
    refine (parallel_block hexpr).andThen fun yes yes' hyes => ?_
    exact (parallel_alternative hexpr ht he hyes (ih m')).mono
      (Nat.le_trans (Nat.sub_le _ 1) (Nat.sub_le _ 1))
      (Nat.le_trans (Nat.sub_le _ 1) (Nat.sub_le _ 1))

end Operands

/-! ### Functions -/

section Parameters

/-- Both runs see together whether a parameter was given before. -/
lemma any_name_eq {given given' : List Ident} {param param' : Ident}
    (hgiven : given.map (Ident.mapSpans S.view) = given'.map (Ident.mapSpans S.view))
    (hparam : param.mapSpans S.view = param'.mapSpans S.view) :
    given'.any (·.name == param'.name) = given.any (·.name == param.name) := by
  have hnames := congrArg (List.any · (·.name == param.name)) hgiven
  simp only [List.any_map] at hnames
  rw [← name_eq hparam]
  exact hnames.symm

/-- What follows a parameter. -/
lemma parallel_furtherParameters {given given' : List Ident}
    (hgiven : given.map (Ident.mapSpans S.view) = given'.map (Ident.mapSpans S.view))
    (hrest : S.Parallel n n' False true (List.map (Ident.mapSpans S.view)) (parameters n given)
      (parameters n' given')) :
    S.Parallel n n' True false (List.map (Ident.mapSpans S.view)) (furtherParameters n given)
      (furtherParameters n' given') := by
  unfold furtherParameters
  refine (parallel_eat .comma).andThen_idle fun b b' hb => ?_
  obtain rfl : b = b' := hb
  cases b with
  | false => exact .pure hgiven
  | true =>
    refine (parallel_look fun h hlost => (h.atSymbol_eq hlost .closeParen).symm).andThen_idle
      fun b b' hb => ?_
    obtain rfl : b = b' := hb
    cases b with
    | false => exact .forget hrest.anywhere
    | true => exact .pure hgiven

/-- Parameters after those that were given before. -/
lemma parallel_parameters (n n' : Nat) {given given' : List Ident}
    (hgiven : given.map (Ident.mapSpans S.view) = given'.map (Ident.mapSpans S.view)) :
    S.Parallel n n' False true (List.map (Ident.mapSpans S.view)) (parameters n given)
      (parameters n' given') := by
  induction n generalizing n' given given' with
  | zero => exact .exhausted fun c => .refl c
  | succ n ih =>
    refine .of_step (f := fun m' => parameters m' given') (fun m' => ?_) n'
    rw [parameters_succ, parameters_succ]
    refine parallel_ident.andThen fun param param' hparam => ?_
    have hgiven₁ : (given ++ [param]).map (Ident.mapSpans S.view) =
        (given' ++ [param']).map (Ident.mapSpans S.view) := by
      simp [hgiven, hparam]
    have hfurther := parallel_furtherParameters hgiven₁ (ih m' hgiven₁)
    rw [any_name_eq hgiven hparam, ← name_eq hparam]
    split
    · exact (parallel_warn _ (view_span_ident hparam)).andThen_idle fun _ _ _ => hfurther
    · exact hfurther

/-- The parameters up to the closing parenthesis. -/
lemma parallel_parameterList : S.Parallel n n' True false (List.map (Ident.mapSpans S.view))
    parameterList parameterList :=
  parallel_ite (fun h hlost => h.atSymbol_eq hlost .closeParen) (p := pure []) (.pure rfl)
    (.forget (.anywhere (.of_rounds fun _ _ => parallel_parameters _ _ rfl)))

/-- The parameters and the body of a function. -/
lemma parallel_functionRest (hexpr : S.UniformExpr expr) {name name' : Option Ident}
    {s s' : Span} (hname : name.map (Ident.mapSpans S.view) = name'.map (Ident.mapSpans S.view))
    (hs : S.view s = S.view s') :
    S.Parallel n n' start true (Expr.mapSpans S.view) (functionRest expr name s)
      (functionRest expr name' s') := by
  unfold functionRest
  refine (parallel_expect .openParen).andThen fun o o' ho => ?_
  refine Parallel.andThen_idle (p := parameterList) parallel_parameterList
    fun params params' hparams => .forget ?_
  refine (parallel_close .closeParen (view_span_token ho)).andThen fun _ _ _ => .forget ?_
  refine (parallel_block hexpr).andThen fun body body' hbody => .pure ?_
  have hspan := S.view_merge hs (view_span_block hbody)
  simp only [Expr.mapSpans, hspan, hname, hparams, hbody]

end Parameters

/-! ### Operands and expressions -/

section Operands

variable (hexpr : S.UniformExpr expr)

include hexpr

/-- An operand that begins with its own sign or word. -/
lemma parallel_primary :
    S.Parallel n n' start true (Expr.mapSpans S.view) (primary expr) (primary expr) := by
  have hleaf (g : Span → Expr) (hg : ∀ s, (g s).mapSpans S.view = g (S.view s)) :
      S.Parallel n n' start true (Expr.mapSpans S.view) (fun c => (some (g c.span), c.advance))
        (fun c => (some (g c.span), c.advance)) := by
    refine parallel_leaf fun s s' hs => ?_
    rw [hg, hg, hs]
  have hparen (s s' : Span) (hs : S.view s = S.view s') : S.Parallel n n' start true
      (Expr.mapSpans S.view) (parenthesized expr s) (parenthesized expr s') := by
    refine parallel_next.andThen fun _ _ _ => .forget ?_
    refine (hexpr _ _).anywhere.andThen fun e e' he => .forget ?_
    refine (parallel_close .closeParen hs).andThen fun t t' ht => .pure ?_
    simp only [Expr.mapSpans, S.view_merge hs (view_span_token ht), he]
  have hnameless (s s' : Span) (hs : S.view s = S.view s') : S.Parallel n n' start true
      (Expr.mapSpans S.view) (nameless expr s) (nameless expr s') :=
    parallel_next.andThen fun _ _ _ => .forget (parallel_functionRest hexpr rfl hs)
  have htitled (s s' : Span) (hs : S.view s = S.view s') : S.Parallel n n' start true
      (Expr.mapSpans S.view) (titled expr s) (titled expr s') := by
    refine parallel_next.andThen fun _ _ _ => .forget ?_
    refine parallel_ident.andThen fun i i' hi => .forget ?_
    exact parallel_functionRest hexpr (congrArg some hi) hs
  have hchoice : S.Parallel n n' start true (Expr.mapSpans S.view) (choice expr) (choice expr) := by
    have hbranches : S.Parallel n n' False true (Conditional.mapSpans S.view) _ _ :=
      .of_rounds (parallel_conditional hexpr)
    refine hbranches.anywhere.andThen fun k k' hk => .pure ?_
    simp only [Expr.mapSpans, hk]
  refine parallel_of_kind fun k => ?_
  cases k with
  | number x =>
    exact ⟨_, fun c hc => by rw [primary, hc], hleaf (fun s => .number s x) fun _ => rfl⟩
  | text x =>
    exact ⟨_, fun c hc => by rw [primary, hc], hleaf (fun s => .text s x) fun _ => rfl⟩
  | name x =>
    exact ⟨_, fun c hc => by rw [primary, hc], hleaf (fun s => .name s x) fun _ => rfl⟩
  | keyword w =>
    cases w with
    | kweli =>
      exact ⟨_, fun c hc => by rw [primary, hc], hleaf (fun s => .boolean s true) fun _ => rfl⟩
    | sikweli =>
      exact ⟨_, fun c hc => by rw [primary, hc], hleaf (fun s => .boolean s false) fun _ => rfl⟩
    | tupu =>
      exact ⟨_, fun c hc => by rw [primary, hc], hleaf .null fun _ => rfl⟩
    | kama => exact ⟨_, fun c hc => by rw [primary, hc]; rfl, hchoice⟩
    | wakati => exact ⟨_, fun c hc => by rw [primary, hc], parallel_loop hexpr⟩
    | unda => exact ⟨_, fun c hc => by rw [primary, hc]; rfl, parallel_of_span hnameless⟩
    | kazi => exact ⟨_, fun c hc => by rw [primary, hc]; rfl, parallel_of_span htitled⟩
    | _ => exact ⟨_, fun c hc => by rw [primary, hc], parallel_failHere _⟩
  | symbol s =>
    cases s with
    | openParen => exact ⟨_, fun c hc => by rw [primary, hc]; rfl, parallel_of_span hparen⟩
    | _ => exact ⟨_, fun c hc => by rw [primary, hc], parallel_failHere _⟩
  | _ => exact ⟨_, fun c hc => by rw [primary, hc], parallel_failHere _⟩

/-- A sign and the operand below it, or an operand with its calls. -/
lemma parallel_prefixed {below : Parser Expr} (hbelow : S.UniformExpr below) :
    S.UniformExpr (prefixed below expr) := by
  refine fun n n' => parallel_of_kind fun k => ?_
  cases hop : unaryOp? k with
  | some op =>
    refine ⟨_, fun c hc => by rw [prefixed, hc, hop], ?_⟩
    refine parallel_next.andThen fun t t' ht => .forget ?_
    refine (hbelow _ _).anywhere.andThen fun e e' he => .pure ?_
    simp only [Expr.mapSpans, S.view_merge (view_span_token ht) (view_span he), he]
  | none =>
    exact ⟨_, fun c hc => prefixed_of_none (hc ▸ hop), (parallel_primary hexpr).andThen
      fun _ _ he => .of_rounds fun _ _ => parallel_calls hexpr _ _ he⟩

end Operands

/-- Where no level is left. -/
lemma parallel_tooDeep : S.UniformExpr tooDeep := fun _ _ => parallel_failHere _

/-- Operands, with any number of levels left. -/
lemma parallel_operand (levels : Nat) : S.UniformExpr (operand levels) := by
  induction levels with
  | zero => exact parallel_prefixed parallel_tooDeep parallel_tooDeep
  | succ levels ih => exact parallel_prefixed (parallel_operators ih) ih

/-- Expressions, with any number of levels left. -/
lemma parallel_expression (levels : Nat) : S.UniformExpr (expression levels) := by
  cases levels with
  | zero => exact parallel_tooDeep
  | succ levels => exact parallel_operators (parallel_operand levels)

/-! ### Programs -/

section Programs

variable (hexpr : S.UniformExpr expr)

include hexpr

/-- The statements of a program. -/
lemma parallel_programStatements (n n' : Nat) :
    S.Parallel n n' False false (Stmt.mapSpansList S.view) (programStatements expr n)
      (programStatements expr n') := by
  induction n generalizing n' with
  | zero => exact .exhausted fun c => .refl c
  | succ n ih =>
    refine .of_step (fun m' => ?_) n'
    have hbrace (c : Cursor) :
        c.Onward (programStatements expr n (c.report .strayBrace c.span).advance).2 :=
      ((Cursor.Onward.report c _ _).trans (.advance _)).trans ((ih 0).onward _)
    have honward (c : Cursor) : c.Onward (programStatements expr (n + 1) c).2 := by
      rw [programStatements_succ]
      split
      · exact .refl c
      · split
        · exact hbrace c
        · exact onward_oneStatement hexpr (ih 0).onward c
    refine ⟨honward, (fun h => nomatch h), fun {c c'} h hn hn' => ?_⟩
    refine .of_onward (honward c) fun hlost => ?_
    rw [programStatements_succ, programStatements_succ, h.atSymbol_eq hlost, h.atEnd_eq hlost,
      ← S.isFull h.faults hlost]
    split
    · exact .ok rfl (h.mono fun hm => hm.elim (fun h => nomatch h) id)
    · next hstop =>
      simp only [Bool.or_eq_true, not_or, Bool.not_eq_true] at hstop
      split
      · have h₁ := h.report .strayBrace (h.span_eq hlost)
        by_cases hlost₁ : S.lost (c.report .strayBrace c.span)
        · exact .lost (S.lost_of_onward ((Cursor.Onward.advance _).trans ((ih 0).onward _)) hlost₁)
        · have h₂ := h₁.advance hlost₁
          obtain ⟨hlength, hlength'⟩ :=
            h₁.length_le h₂ hn hn' (Cursor.length_advance_lt (h₁.ne_nil hlost₁))
          exact (ih m').agree (h₂.mono False.elim) hlength hlength'
      · next hopen =>
        have hx := oneStatement_outcome hexpr (ih m') h hn hn' hlost hstop.1
          (Bool.not_eq_true _ ▸ hopen)
        exact hx.mono (fun hm => hm.elim (fun h => nomatch h) id) fun _ _ => id

/-- What both runs read as a program. -/
lemma programStatements_outcome {c c' : Cursor} (h : S.Abreast False c c')
    (hn : c.rest.length ≤ n) (hn' : c'.rest.length ≤ n') :
    S.Outcome False (Stmt.mapSpansList S.view) (programStatements expr n c)
      (programStatements expr n' c') :=
  ((parallel_programStatements hexpr n n').agree h hn hn').mono .inr fun _ _ => id

end Programs

end Comparison

end Lugha
