import Lugha.Proofs.Concatenation
import Lugha.Proofs.ErrorBudget
import Mathlib.Order.Bounds.Defs

/-!
# The most errors that the parser reports

The budget of errors is used up by some tokens, whatever number of braces are open at once among
them and whatever number of parameters are repeated.  `worstTokens` are such tokens.  Functions
stand one inside another, as deep as expressions may be nested, and the body of the innermost one
fills the list of errors.  Behind this body comes an operator, so that the same statement goes on
with a function whose parameters are repeated and whose list of parameters is not closed.  There the
text ends, and so none of the other bodies is closed.

`Parser.Goes` says what a parser does with given tokens, as far as errors are counted.
-/

namespace Lugha

/-! ### What a parser does with given tokens -/

namespace Cursor

/-- A cursor stands before given tokens, after a number of errors. -/
structure Stands (ks : List TokenKind) (n : Nat) (c : Cursor) : Prop where
  kinds : c.kinds = ks
  total : c.faults.total = n

namespace Stands

variable {k : TokenKind} {ks : List TokenKind} {n : Nat} {c : Cursor}

/-- The next token. -/
lemma kind (h : c.Stands (k :: ks) n) : c.kind = k := kind_of_kinds h.kinds

/-- How many tokens are left. -/
lemma length (h : c.Stands ks n) : c.rest.length = ks.length := by
  rw [← h.kinds, Cursor.kinds, List.length_map]

/-- Moving on. -/
lemma advance (h : c.Stands (k :: ks) n) : c.advance.Stands ks n := by
  constructor
  · rw [kinds_advance, h.kinds, List.tail_cons]
  · rw [faults_advance, h.total]

/-- One more error. -/
lemma report (h : c.Stands ks n) (e : SyntaxError) (span : Span) :
    (c.report e span).Stands ks (n + 1) :=
  ⟨h.kinds, congrArg (· + 1) h.total⟩

/-- The sign before which a cursor stands. -/
lemma atSymbol {s : Symbol} (h : c.Stands (.symbol s :: ks) n) : c.atSymbol s = true :=
  atSymbol_iff.2 h.kind

/-- A sign before which a cursor does not stand. -/
lemma not_atSymbol {s : Symbol} (h : c.Stands (k :: ks) n) (hk : k ≠ .symbol s) :
    c.atSymbol s = false := by
  rw [← Bool.not_eq_true, atSymbol_iff, h.kind]
  exact hk

/-- Whether a cursor stands before the end. -/
lemma atEnd (h : c.Stands (k :: ks) n) : c.atEnd = k.isEnd := by
  rw [Cursor.atEnd, h.kind]

/-- Whether the list of errors is full. -/
lemma isFull (h : c.Stands ks n) : c.faults.isFull = decide (ErrorList.capacity ≤ n) := by
  rw [ErrorList.isFull, h.total]

end Stands

end Cursor

namespace Parser

variable {α β : Type} {ks ks' ks'' : List TokenKind} {n n' n'' : Nat} {ok : Bool}

/-- An operand is read with the levels that are left below it. -/
lemma exists_operand (levels : Nat) :
    ∃ below, operand levels = prefixed below (expression levels) := by
  cases levels <;> exact ⟨_, rfl⟩

/-- A parser that begins before given tokens and after a number of errors succeeds, or does not, and
it ends before given tokens and after a number of errors. -/
def Goes (p : Parser α) (ks : List TokenKind) (n : Nat) (ok : Bool) (ks' : List TokenKind)
    (n' : Nat) : Prop :=
  ∀ c : Cursor, c.Stands ks n → (p c).1.isSome = ok ∧ (p c).2.Stands ks' n'

namespace Goes

variable {p : Parser α} {f : α → Parser β}

/-- One parser and then a second one. -/
lemma bind (hp : Goes p ks n true ks' n') (hf : ∀ a, Goes (f a) ks' n' ok ks'' n'') :
    Goes (p >>= f) ks n ok ks'' n'' := by
  intro c hc
  obtain ⟨hsome, hstands⟩ := hp c hc
  change (p.andThen f c).1.isSome = ok ∧ (p.andThen f c).2.Stands ks'' n''
  unfold Parser.andThen
  generalize p c = x at hsome hstands
  rcases x with ⟨_ | a, c₁⟩
  · cases hsome
  · exact hf a c₁ hstands

/-- After a parser that fails nothing else is read. -/
lemma stop (hp : Goes p ks n false ks' n') : Goes (p >>= f) ks n false ks' n' := by
  intro c hc
  obtain ⟨hnone, hstands⟩ := hp c hc
  change (p.andThen f c).1.isSome = false ∧ (p.andThen f c).2.Stands ks' n'
  unfold Parser.andThen
  generalize p c = x at hnone hstands
  rcases x with ⟨_ | a, c₁⟩
  · exact ⟨rfl, hstands⟩
  · cases hnone

/-- A result without reading. -/
lemma pure (a : α) : Goes (Pure.pure a) ks n true ks n := fun _ hc => ⟨rfl, hc⟩

/-- A parser whose result is made into another one. -/
lemma map (hp : Goes p ks n ok ks' n') (g : α → β) :
    Goes (p >>= fun a => Pure.pure (g a)) ks n ok ks' n' := by
  cases ok with
  | true => exact hp.bind fun a => pure (g a)
  | false => exact hp.stop

/-- Recording an error at the next token. -/
lemma failHere (e : TokenKind → SyntaxError) :
    Goes (failHere e : Parser α) ks n false ks (n + 1) := fun _ hc => ⟨rfl, hc.report _ _⟩

/-- A sign that has to stand here. -/
lemma expect (s : Symbol) : Goes (expect s) (.symbol s :: ks) n true ks n := by
  intro c hc
  unfold Parser.expect
  rw [if_pos hc.atSymbol]
  exact ⟨rfl, hc.advance⟩

/-- The sign that closes a bracket. -/
lemma close (s : Symbol) (opened : Span) :
    Goes (close s opened) (.symbol s :: ks) n true ks n := by
  intro c hc
  unfold Parser.close
  rw [hc.atEnd]
  exact expect s c hc

/-- A bracket that is not closed when the text ends. -/
lemma close_end (s : Symbol) (opened : Span) :
    Goes (Parser.close s opened) (.endOfFile :: ks) n false (.endOfFile :: ks) (n + 1) := by
  intro c hc
  unfold Parser.close
  rw [hc.atEnd]
  exact ⟨rfl, hc.report _ _⟩

/-! ### Expressions -/

section Expressions

variable {operand expr below : Parser Expr} {op? : TokenKind → Option BinaryOp} {k : TokenKind}

/-- An operand behind which no operator of this level stands. -/
lemma level (h : Goes operand ks n true (k :: ks') n') (hop : op? k = none) :
    Goes (level op? operand) ks n true (k :: ks') n' := by
  refine h.bind fun left c hc => ?_
  have hchain (rounds : Nat) : chain op? operand rounds left c = (some left, c) := by
    cases rounds with
    | zero => rfl
    | succ rounds => rw [chain, hc.kind, hop]
  rw [hchain]
  exact ⟨rfl, hc⟩

/-- An operator whose right operand cannot be read. -/
lemma level_right {op : BinaryOp} (h : Goes operand ks n true (k :: ks') n') (hop : op? k = some op)
    (hright : Goes operand ks' n' false ks'' n'') :
    Goes (Parser.level op? operand) ks n false ks'' n'' := by
  refine h.bind fun left c hc => ?_
  obtain ⟨rounds, hrounds⟩ : ∃ rounds, c.rest.length = rounds + 1 := ⟨ks'.length, hc.length⟩
  rw [hrounds, chain_succ (by rw [hc.kind, hop])]
  exact stop hright c.advance hc.advance

/-- An operand that cannot be read. -/
lemma operators (h : Goes operand ks n false ks' n') :
    Goes (operators operand) ks n false ks' n' := h.stop.stop.stop.stop.stop

/-- A sum whose right operand cannot be read. -/
lemma operators_right (h : Goes operand ks n true (.symbol .plus :: ks') n')
    (hright : Goes operand ks' n' false ks'' n'') :
    Goes (Parser.operators operand) ks n false ks'' n'' :=
  (level_right (h.level rfl) rfl hright.stop).stop.stop.stop

/-- An operand that cannot be read, with no sign before it. -/
lemma prefixed (hk : unaryOp? k = none) (h : Goes (primary expr) (k :: ks) n false ks' n') :
    Goes (prefixed below expr) (k :: ks) n false ks' n' := by
  intro c hc
  rw [prefixed_of_none (by rw [hc.kind, hk])]
  exact h.stop c hc

/-- An operand that is not called. -/
lemma prefixed_uncalled {l : TokenKind} (hk : unaryOp? k = none) (hl : l ≠ .symbol .openParen)
    (h : Goes (primary expr) (k :: ks) n true (l :: ks') n') :
    Goes (Parser.prefixed below expr) (k :: ks) n true (l :: ks') n' := by
  intro c hc
  rw [prefixed_of_none (by rw [hc.kind, hk])]
  refine h.bind (fun e d hd => ?_) c hc
  have hcalls (rounds : Nat) : calls expr rounds e d = (some e, d) := by
    cases rounds with
    | zero => rfl
    | succ rounds => rw [calls, hd.not_atSymbol hl, if_neg Bool.false_ne_true]
  rw [hcalls]
  exact ⟨rfl, hd⟩

/-- A function without a name. -/
lemma primary (h : ∀ start, Goes (functionRest expr none start) ks n ok ks' n') :
    Goes (primary expr) (.keyword .unda :: ks) n ok ks' n' := by
  intro c hc
  unfold Parser.primary
  rw [hc.kind]
  exact h _ _ hc.advance

/-- A block, up to where it should be closed. -/
lemma block (hstmts : Goes (blockStatements expr ks.length) ks n true ks' n')
    (hclose : ∀ opened, Goes (Parser.close .closeBrace opened) ks' n' ok ks'' n'') :
    Goes (block expr) (.symbol .openBrace :: ks) n ok ks'' n'' := by
  refine (expect .openBrace).bind fun opened => ?_
  have hread : Goes (fun c => blockStatements expr c.rest.length c) ks n true ks' n' := by
    intro c hc
    dsimp only
    rw [hc.length]
    exact hstmts c hc
  exact hread.bind fun stmts => (hclose _).map _

/-- A function without parameters. -/
lemma functionRest (name : Option Ident) (start : Span)
    (h : Goes (Parser.block expr) ks n ok ks' n') :
    Goes (functionRest expr name start) (.symbol .openParen :: .symbol .closeParen :: ks) n ok
      ks' n' := by
  refine (expect .openParen).bind fun opened => ?_
  have hempty : Goes parameterList (.symbol .closeParen :: ks) n true
      (.symbol .closeParen :: ks) n := by
    intro c hc
    unfold parameterList
    rw [if_pos hc.atSymbol]
    exact ⟨rfl, hc⟩
  exact hempty.bind fun params => (close .closeParen _).bind fun _ => h.map _

/-! ### Parameters -/

/-- A parameter behind which the text ends. -/
lemma furtherParameters_end (rounds : Nat) (given : List Ident) :
    Goes (furtherParameters rounds given) (.endOfFile :: ks) n true (.endOfFile :: ks) n := by
  intro c hc
  unfold Parser.furtherParameters
  rw [eat_andThen, hc.not_atSymbol (by simp)]
  exact ⟨rfl, hc⟩

/-- A parameter behind which another one stands. -/
lemma furtherParameters_comma {rounds : Nat} {given : List Ident}
    (h : Goes (parameters rounds given) (k :: ks) n ok ks' n') (hk : k ≠ .symbol .closeParen) :
    Goes (furtherParameters rounds given) (.symbol .comma :: k :: ks) n ok ks' n' := by
  intro c hc
  unfold Parser.furtherParameters
  rw [eat_andThen, if_pos hc.atSymbol, if_pos rfl, look_andThen, hc.advance.not_atSymbol hk]
  exact h _ hc.advance

/-- A parameter, which is reported if it was given before. -/
lemma parameters_name {rounds : Nat} {given : List Ident} {x : String}
    (h : ∀ span, Goes (furtherParameters rounds (given ++ [⟨x, span⟩])) ks
      (n + if x ∈ given.map (·.name) then 1 else 0) ok ks' n') :
    Goes (parameters (rounds + 1) given) (.name x :: ks) n ok ks' n' := by
  intro c hc
  rw [parameters_succ, ident_andThen, hc.kind]
  by_cases hgiven : x ∈ given.map (·.name)
  · dsimp only
    rw [if_pos ((any_name_iff given x).2 hgiven)]
    refine h c.span (c.advance.report _ _) ?_
    rw [if_pos hgiven]
    exact hc.advance.report _ _
  · dsimp only
    rw [if_neg (mt (any_name_iff given x).1 hgiven)]
    refine h c.span c.advance ?_
    rw [if_neg hgiven]
    exact hc.advance

end Expressions

end Goes

end Parser

/-- The same name again and again, with commas between, up to the end. -/
def repeatedNames : Nat → List TokenKind
  | 0 => [.name "a", .endOfFile]
  | repeated + 1 => .name "a" :: .symbol .comma :: repeatedNames repeated

lemma length_repeatedNames (repeated : Nat) :
    (repeatedNames repeated).length = repeated + 1 + repeated + 1 := by
  induction repeated with
  | zero => rfl
  | succ repeated ih =>
    rw [repeatedNames, List.length_cons, List.length_cons, ih]
    omega

lemma exists_repeatedNames (repeated : Nat) : ∃ ks, repeatedNames repeated = .name "a" :: ks := by
  cases repeated <;> exact ⟨_, rfl⟩

namespace Parser.Goes

variable {expr : Parser Expr} {ks ks' ks'' : List TokenKind} {k : TokenKind} {n n' n'' : Nat}

/-- Each parameter is reported, but for the first one if it was not given before. -/
lemma parameters_repeatedNames (rounds repeated : Nat) (given : List Ident) :
    Goes (parameters (rounds + repeated + 1) given) (repeatedNames repeated) n true
      [.endOfFile] (n + (if "a" ∈ given.map (·.name) then 1 else 0) + repeated) := by
  induction repeated generalizing given n with
  | zero => exact parameters_name fun span => furtherParameters_end rounds _
  | succ repeated ih =>
    refine parameters_name fun span => ?_
    have hgiven : "a" ∈ (given ++ [(⟨"a", span⟩ : Ident)]).map (·.name) := by simp
    have hnext := ih (n := n + if "a" ∈ given.map (·.name) then 1 else 0) (given ++ [⟨"a", span⟩])
    rw [if_pos hgiven, Nat.add_right_comm _ 1 repeated] at hnext
    obtain ⟨ks, hks⟩ := exists_repeatedNames repeated
    rw [hks] at hnext ⊢
    exact furtherParameters_comma hnext (by simp)

/-- A list of parameters that is not closed. -/
lemma functionRest_repeatedNames (repeated : Nat) (name : Option Ident) (start : Span) :
    Goes (Parser.functionRest expr name start)
      (.symbol .openParen :: repeatedNames repeated) n false [.endOfFile]
      (n + repeated + 1) := by
  refine (expect .openParen).bind fun opened => ?_
  have hparams : Goes parameterList (repeatedNames repeated) n true [.endOfFile]
      (n + repeated) := by
    intro c hc
    obtain ⟨ks, hks⟩ := exists_repeatedNames repeated
    have hname : c.Stands (.name "a" :: ks) n := hks ▸ hc
    unfold parameterList
    rw [hname.not_atSymbol (by simp), hc.length, length_repeatedNames]
    exact parameters_repeatedNames _ repeated [] c hc
  exact hparams.bind fun params => (close_end .closeParen _).stop

/-! ### Statements -/

/-- An expression cannot begin with a semicolon or an opening brace. -/
lemma expression_refuses (levels : Nat)
    (hk : k = .symbol .semicolon ∨ k = .symbol .openBrace) :
    Goes (expression levels) (k :: ks) n false (k :: ks) (n + 1) := by
  have hunary : unaryOp? k = none := by rcases hk with rfl | rfl <;> rfl
  have hprimary (nested : Parser Expr) :
      Goes (Parser.primary nested) (k :: ks) n false (k :: ks) (n + 1) := by
    intro c hc
    unfold Parser.primary
    rw [hc.kind]
    rcases hk with rfl | rfl <;> exact failHere _ c hc
  cases levels with
  | zero => exact failHere _
  | succ levels =>
    obtain ⟨below, hbelow⟩ := exists_operand levels
    rw [expression, hbelow]
    exact operators (prefixed hunary (hprimary _))

/-- A statement that begins as an expression and cannot be read. -/
lemma statement (hk : k = .symbol .semicolon ∨ k = .symbol .openBrace ∨ k = .keyword .unda)
    (h : Goes expr (k :: ks) n false ks' n') : Goes (statement expr) (k :: ks) n false ks' n' := by
  refine stop fun c hc => ?_
  have hassigns : assigns c = false := by
    unfold assigns
    split
    · next hrest =>
      have hkind := hc.kind
      rw [Cursor.kind, Cursor.peek, hrest] at hkind
      rcases hk with rfl | rfl | rfl <;> cases hkind
    · rfl
  have hbare : unterminated expr c = bare expr c := by
    unfold unterminated
    rw [hc.kind]
    rcases hk with rfl | rfl | rfl <;> simp [hassigns]
  rw [hbare]
  exact h.stop c hc

end Parser.Goes

/-! ### Skipping what cannot be read -/

/-- What is skipped after a statement that begins with opening braces. -/
lemma Cursor.kinds_resume {faults : ErrorList Fault} (moved : Bool) {previous : Span}
    {ts : List Token} {braces : Nat} {ks : List TokenKind}
    (h : ts.map (·.kind) =
      List.replicate braces (.symbol .openBrace) ++ .symbol .semicolon :: ks) :
    (resume faults moved previous ts).kinds = ks := by
  induction braces generalizing moved previous ts with
  | zero =>
    obtain ⟨t, ts, rfl, ht, hts⟩ := List.map_eq_cons_iff.1 h
    simp only [resume, ht]
    exact hts
  | succ braces ih =>
    obtain ⟨t, ts, rfl, ht, hts⟩ := List.map_eq_cons_iff.1 h
    simpa only [resume, ht, resumes, Bool.and_false, Bool.false_eq_true, if_false] using ih true hts

namespace Cursor.Stands

variable {ks : List TokenKind} {n : Nat} {c : Cursor}

/-- Opening braces are skipped, up to a semicolon. -/
lemma synchronize (braces : Nat) (h : c.Stands
    (List.replicate braces (.symbol .openBrace) ++ .symbol .semicolon :: ks) n) :
    c.synchronize.Stands ks n := by
  constructor
  · exact kinds_resume false h.kinds
  · rw [c.faults_synchronize, h.total]

/-- Before the end nothing is skipped. -/
lemma synchronize_end (h : c.Stands (.endOfFile :: ks) n) :
    c.synchronize.Stands (.endOfFile :: ks) n := by
  have hrest : c.rest.map (·.kind) = .endOfFile :: ks := h.kinds
  obtain ⟨t, ts, hts, ht, -⟩ := List.map_eq_cons_iff.1 hrest
  have hstays : c.synchronize = c := by
    simp only [Cursor.synchronize, hts, resume, ht]
    rw [← hts]
  rw [hstays]
  exact h

end Cursor.Stands

/-! ### Loops over statements -/

namespace Parser

variable {expr : Parser Expr} {ks ks' ks'' : List TokenKind} {k : TokenKind} {n n' n'' : Nat}

/-- A loop over statements: before the end it stops, and before anything but a closing brace it
reads a statement while the list of errors is not full. -/
structure StatementLoop (expr : Parser Expr) (loop : Nat → Parser (List Stmt)) : Prop where
  ended : ∀ rounds c, c.atEnd = true → loop rounds c = (some [], c)
  round : ∀ rounds c, c.atSymbol .closeBrace = false → c.atEnd = false →
    c.faults.isFull = false → loop (rounds + 1) c = oneStatement expr (loop rounds) c

/-- The statements of a block. -/
lemma statementLoop_blockStatements (expr : Parser Expr) :
    StatementLoop expr (blockStatements expr) := by
  constructor
  · intro rounds c hend
    cases rounds with
    | zero => rfl
    | succ rounds => rw [blockStatements_succ, hend, Bool.or_true, Bool.true_or, if_pos rfl]
  · intro rounds c hbrace hend hfull
    rw [blockStatements_succ, hbrace, hend, hfull]
    rfl

/-- The statements of a program. -/
lemma statementLoop_programStatements (expr : Parser Expr) :
    StatementLoop expr (programStatements expr) := by
  constructor
  · intro rounds c hend
    cases rounds with
    | zero => rfl
    | succ rounds => rw [programStatements_succ, hend, Bool.true_or, if_pos rfl]
  · intro rounds c hbrace hend hfull
    rw [programStatements_succ, hbrace, hend, hfull]
    rfl

namespace StatementLoop

variable {loop : Nat → Parser (List Stmt)}

/-- Before the end. -/
lemma goes_end (hloop : StatementLoop expr loop) (rounds : Nat) :
    Goes (loop rounds) (.endOfFile :: ks) n true (.endOfFile :: ks) n := by
  intro c hc
  rw [hloop.ended rounds c hc.atEnd]
  exact ⟨rfl, hc⟩

/-- A statement that cannot be read, and those after what is skipped. -/
lemma goes_skip {rest : List TokenKind} (hloop : StatementLoop expr loop) {rounds : Nat}
    (hk : k ≠ .symbol .closeBrace) (hend : k.isEnd = false) (hn : n < ErrorList.capacity)
    (hstmt : Goes (statement expr) (k :: ks) n false ks' n')
    (hskip : ∀ c : Cursor, c.Stands ks' n' → c.synchronize.Stands rest n')
    (hrest : Goes (loop rounds) rest n' true ks'' n'') :
    Goes (loop (rounds + 1)) (k :: ks) n true ks'' n'' := by
  intro c hc
  have hfull : c.faults.isFull = false := by
    rw [hc.isFull]
    exact decide_eq_false (Nat.not_le_of_lt hn)
  rw [hloop.round rounds c (hc.not_atSymbol hk) (by rw [hc.atEnd, hend]) hfull]
  obtain ⟨hnone, hstands⟩ := hstmt c hc
  unfold oneStatement
  generalize statement expr c = x at hnone hstands
  rcases x with ⟨_ | s, c₁⟩
  · exact hrest _ (hskip c₁ hstands)
  · cases hnone

/-- A function that is not read up to its end before the text ends. -/
lemma goes_unda (hloop : StatementLoop expr loop) (rounds : Nat) (hn : n < ErrorList.capacity)
    (hstmt : Goes (statement expr) (.keyword .unda :: ks) n false (.endOfFile :: ks') n') :
    Goes (loop (rounds + 1)) (.keyword .unda :: ks) n true (.endOfFile :: ks') n' :=
  hloop.goes_skip (by simp) rfl hn hstmt (fun _ hc => hc.synchronize_end) (hloop.goes_end rounds)

/-- Semicolons: each of them is reported. -/
lemma goes_semicolons {levels rounds : Nat} (hloop : StatementLoop (expression levels) loop)
    (signs : Nat) (hn : n + signs ≤ ErrorList.capacity)
    (hrest : Goes (loop rounds) ks (n + signs) true ks' n') :
    Goes (loop (rounds + signs)) (List.replicate signs (.symbol .semicolon) ++ ks) n true
      ks' n' := by
  induction signs generalizing n with
  | zero => exact hrest
  | succ signs ih =>
    let rest := List.replicate signs (.symbol .semicolon) ++ ks
    have hstmt : Goes (statement (expression levels)) (.symbol .semicolon :: rest) n false
        (.symbol .semicolon :: rest) (n + 1) :=
      .statement (.inl rfl) (.expression_refuses levels (.inl rfl))
    have hnext : Goes (loop (rounds + signs)) rest (n + 1) true ks' n' := by
      refine ih (by omega) ?_
      rwa [Nat.add_right_comm]
    exact hloop.goes_skip (by simp) rfl (by omega) hstmt (fun c hc => hc.synchronize 0) hnext

end StatementLoop

end Parser

/-! ### Functions one inside another -/

/-- The beginnings of functions without parameters, one inside another, before further tokens. -/
def openedFunctions : Nat → List TokenKind → List TokenKind
  | 0, ks => ks
  | depth + 1, ks =>
    .keyword .unda :: .symbol .openParen :: .symbol .closeParen :: .symbol .openBrace ::
      openedFunctions depth ks

/-- Semicolons, of which each is an error. -/
def semicolons (signs : Nat) : List TokenKind := List.replicate signs (.symbol .semicolon)

/-- The beginning of a function with parameters that are repeated. -/
def repeatedHeader (repeated : Nat) : List TokenKind :=
  .keyword .unda :: .symbol .openParen :: repeatedNames repeated

/-- A function whose body fills the list of errors, and behind it, in the same statement, one whose
parameters are repeated. -/
def fillingFunction (repeated : Nat) : List TokenKind :=
  openedFunctions 1 (semicolons (ErrorList.capacity - 1) ++
    .symbol .closeBrace :: .symbol .plus :: repeatedHeader repeated)

lemma exists_openedFunctions (depth repeated : Nat) :
    ∃ ks, openedFunctions depth (fillingFunction repeated) = .keyword .unda :: ks := by
  cases depth <;> exact ⟨_, rfl⟩

namespace Parser

variable {ks ks' : List TokenKind} {n n' : Nat} {ok : Bool}

namespace Goes

/-- A function as an operand that cannot be read. -/
lemma operand (levels : Nat)
    (h : ∀ start, Goes (Parser.functionRest (expression levels) none start) ks n false ks' n') :
    Goes (operand levels) (.keyword .unda :: ks) n false ks' n' := by
  obtain ⟨below, hbelow⟩ := exists_operand levels
  rw [hbelow]
  exact prefixed rfl (primary h)

/-- Before a closing brace a block ends. -/
lemma blockStatements_brace (expr : Parser Expr) (rounds : Nat) :
    Goes (blockStatements expr rounds) (.symbol .closeBrace :: ks) n true
      (.symbol .closeBrace :: ks) n := by
  intro c hc
  have hstop : blockStatements expr rounds c = (some [], c) := by
    cases rounds with
    | zero => rfl
    | succ rounds => rw [blockStatements_succ, hc.atSymbol, Bool.true_or, Bool.true_or, if_pos rfl]
  rw [hstop]
  exact ⟨rfl, hc⟩

/-- The list of errors is filled, and all parameters but the first are reported on top of that. -/
lemma statement_fillingFunction (levels repeated : Nat) :
    Goes (Parser.statement (expression (levels + 1))) (fillingFunction repeated) 1 false
      [.endOfFile] (ErrorList.capacity + repeated + 1) := by
  let behind : List TokenKind := .symbol .plus :: repeatedHeader repeated
  let body : List TokenKind := semicolons (ErrorList.capacity - 1) ++ .symbol .closeBrace :: behind
  have hlength : body.length = (behind.length + 1) + (ErrorList.capacity - 1) := by
    rw [List.length_append, semicolons, List.length_replicate, List.length_cons, Nat.add_comm]
  have hstmts : Goes (blockStatements (expression levels) body.length) body 1 true
      (.symbol .closeBrace :: behind) ErrorList.capacity := by
    rw [hlength]
    exact (statementLoop_blockStatements _).goes_semicolons _ (Nat.le_refl _)
      (blockStatements_brace _ _)
  obtain ⟨below, hbelow⟩ := exists_operand levels
  have hleft : Goes (Parser.operand levels) (fillingFunction repeated) 1 true behind
      ErrorList.capacity := by
    rw [hbelow]
    exact prefixed_uncalled rfl (by simp) (primary fun start =>
      functionRest none start (block hstmts fun opened => close _ _))
  exact statement (.inr (.inr rfl)) (operators_right hleft
    (operand levels fun start => functionRest_repeatedNames repeated none start))

/-- Each function around it is not closed, which is one more error. -/
lemma statement_openedFunctions (levels depth repeated : Nat) :
    Goes (Parser.statement (expression (levels + depth + 1)))
      (openedFunctions depth (fillingFunction repeated)) 1 false [.endOfFile]
      (ErrorList.capacity + repeated + 1 + depth) := by
  induction depth with
  | zero => exact statement_fillingFunction levels repeated
  | succ depth ih =>
    obtain ⟨ks, hks⟩ := exists_openedFunctions depth repeated
    rw [openedFunctions]
    rw [hks] at ih ⊢
    have hstmts := (statementLoop_blockStatements _).goes_unda ks.length (by decide) ih
    refine statement (.inr (.inr rfl)) (operators (operand _ fun start => ?_))
    exact functionRest none start (block hstmts fun opened => close_end _ _)

end Goes

end Parser

/-! ### Tokens that use up the budget -/

/-- Tokens with the most errors among those with a number of braces that are open at once and a
number of parameters that are repeated. Braces that would be too deep stand in front, where they are
skipped. -/
def worstTokens : Nat → Nat → List TokenKind
  | 0, repeated => semicolons (ErrorList.capacity - 1) ++ repeatedHeader repeated
  | braces + 1, repeated =>
    List.replicate (braces + 1 - maxNesting) (.symbol .openBrace) ++ .symbol .semicolon ::
      openedFunctions (min (maxNesting - 1) braces) (fillingFunction repeated)

namespace Parser.Goes

/-- Without braces the list of errors is filled by semicolons. -/
lemma programStatements_semicolons (repeated : Nat) :
    Goes (programStatements (expression maxNesting) (worstTokens 0 repeated).length)
      (worstTokens 0 repeated) 0 true [.endOfFile] (ErrorList.capacity + repeated) := by
  let rest : List TokenKind := .symbol .openParen :: repeatedNames repeated
  have hloop := statementLoop_programStatements (expression maxNesting)
  have hstmt : Goes (Parser.statement (expression maxNesting)) (.keyword .unda :: rest)
      (ErrorList.capacity - 1) false [.endOfFile] (ErrorList.capacity - 1 + repeated + 1) :=
    statement (.inr (.inr rfl)) (operators (operand (maxNesting - 1) fun start =>
      functionRest_repeatedNames repeated none start))
  have hlength : (worstTokens 0 repeated).length = rest.length + 1 + (ErrorList.capacity - 1) := by
    rw [worstTokens, List.length_append, semicolons, List.length_replicate, Nat.add_comm]
    rfl
  have htotal : ErrorList.capacity - 1 + repeated + 1 = ErrorList.capacity + repeated := by
    rw [Nat.add_right_comm]
    rfl
  rw [htotal] at hstmt
  rw [hlength]
  exact hloop.goes_semicolons (ErrorList.capacity - 1) (by decide)
    (hloop.goes_unda rest.length (by decide) hstmt)

/-- With braces it is filled in the innermost function. -/
lemma programStatements_openedFunctions (braces repeated : Nat) :
    Goes (programStatements (expression maxNesting) (worstTokens (braces + 1) repeated).length)
      (worstTokens (braces + 1) repeated) 0 true [.endOfFile]
      (ErrorList.capacity + repeated + 1 + min (maxNesting - 1) braces) := by
  have hloop := statementLoop_programStatements (expression maxNesting)
  have hstmt := statement_openedFunctions (maxNesting - 1 - min (maxNesting - 1) braces)
    (min (maxNesting - 1) braces) repeated
  rw [Nat.sub_add_cancel (Nat.min_le_left _ _)] at hstmt
  obtain ⟨ks, hks⟩ := exists_openedFunctions (min (maxNesting - 1) braces) repeated
  rw [hks] at hstmt
  rw [worstTokens, hks]
  generalize braces + 1 - maxNesting = front
  -- the first statement cannot be read, and is skipped with the braces in front
  obtain ⟨k, tail, hfirst, hk⟩ : ∃ k tail,
      List.replicate front (.symbol .openBrace) ++ .symbol .semicolon :: .keyword .unda :: ks =
        k :: tail ∧ (k = .symbol .semicolon ∨ k = .symbol .openBrace) := by
    cases front with
    | zero => exact ⟨_, _, rfl, .inl rfl⟩
    | succ front => exact ⟨_, _, rfl, .inr rfl⟩
  have hskipped : Goes (Parser.statement (expression maxNesting)) (k :: tail) 0 false
      (k :: tail) 1 := statement (hk.imp_right .inl) (expression_refuses maxNesting hk)
  have hlength : tail.length = front + ks.length + 1 := by
    have h := congrArg List.length hfirst
    simp only [List.length_append, List.length_replicate, List.length_cons] at h
    omega
  rw [hfirst, List.length_cons, hlength]
  refine hloop.goes_skip ?_ ?_ (by decide) hskipped (fun c hc => (hfirst ▸ hc).synchronize front)
    (hloop.goes_unda (front + ks.length) (by decide) hstmt)
  · rcases hk with rfl | rfl <;> simp
  · rcases hk with rfl | rfl <;> rfl

end Parser.Goes

/-! ### Measuring these tokens -/

/-- A token that is no brace. -/
lemma mostBraces_cons {k : TokenKind} {before : Nat} (hk : k.bracesAfter before = before)
    (ks : List TokenKind) : mostBraces before (k :: ks) = mostBraces before ks := by
  rw [mostBraces, hk]
  exact Nat.max_eq_right (le_mostBraces before ks)

/-- An opening brace. -/
lemma mostBraces_openBrace (before : Nat) (ks : List TokenKind) :
    mostBraces before (.symbol .openBrace :: ks) = mostBraces (before + 1) ks :=
  Nat.max_eq_right ((Nat.le_succ before).trans (le_mostBraces (before + 1) ks))

lemma mostBraces_openBraces (before braces : Nat) (ks : List TokenKind) :
    mostBraces before (List.replicate braces (.symbol .openBrace) ++ ks) =
      mostBraces (before + braces) ks := by
  induction braces generalizing before with
  | zero => rfl
  | succ braces ih =>
    rw [List.replicate_succ, List.cons_append, mostBraces_openBrace, ih, Nat.add_right_comm,
      Nat.add_assoc]

lemma mostBraces_semicolons (before signs : Nat) (ks : List TokenKind) :
    mostBraces before (semicolons signs ++ ks) = mostBraces before ks := by
  induction signs with
  | zero => rfl
  | succ signs ih => exact (mostBraces_cons rfl _).trans ih

lemma mostBraces_openedFunctions (before depth : Nat) (ks : List TokenKind) :
    mostBraces before (openedFunctions depth ks) = mostBraces (before + depth) ks := by
  induction depth generalizing before with
  | zero => rfl
  | succ depth ih =>
    rw [openedFunctions, mostBraces_cons rfl, mostBraces_cons rfl, mostBraces_cons rfl,
      mostBraces_openBrace, ih, Nat.add_right_comm, Nat.add_assoc]

lemma mostBraces_repeatedHeader (before repeated : Nat) :
    mostBraces before (repeatedHeader repeated) = before := by
  rw [repeatedHeader, mostBraces_cons rfl, mostBraces_cons rfl]
  induction repeated with
  | zero => rw [repeatedNames, mostBraces_cons rfl, mostBraces_cons rfl, mostBraces]
  | succ repeated ih => rw [repeatedNames, mostBraces_cons rfl, mostBraces_cons rfl, ih]

/-- The most braces are open in the body that fills the list. -/
lemma mostBraces_fillingFunction (before repeated : Nat) :
    mostBraces before (fillingFunction repeated) = before + 1 := by
  rw [fillingFunction, mostBraces_openedFunctions, mostBraces_semicolons, mostBraces,
    mostBraces_cons (by rfl), mostBraces_repeatedHeader]
  exact Nat.max_eq_left (Nat.sub_le _ _)

lemma mostBraces_worstTokens (braces repeated : Nat) :
    mostBraces 0 (worstTokens braces repeated) = braces := by
  cases braces with
  | zero => rw [worstTokens, mostBraces_semicolons, mostBraces_repeatedHeader]
  | succ braces =>
    rw [worstTokens, mostBraces_openBraces, mostBraces_cons rfl, mostBraces_openedFunctions,
      mostBraces_fillingFunction]
    unfold maxNesting
    omega

/-- A token with which no function begins. -/
lemma repeatedParameters_cons {k : TokenKind} {ks : List TokenKind}
    (h : parameterNames (k :: ks) = []) : repeatedParameters (k :: ks) = repeatedParameters ks := by
  rw [repeatedParameters, h]
  exact Nat.zero_add _

lemma repeatedParameters_signs (s : Symbol) (signs : Nat) (ks : List TokenKind) :
    repeatedParameters (List.replicate signs (.symbol s) ++ ks) = repeatedParameters ks := by
  induction signs with
  | zero => rfl
  | succ signs ih => exact (repeatedParameters_cons rfl).trans ih

lemma repeatedParameters_openedFunctions (depth : Nat) (ks : List TokenKind) :
    repeatedParameters (openedFunctions depth ks) = repeatedParameters ks := by
  induction depth with
  | zero => rfl
  | succ depth ih =>
    rw [openedFunctions, repeatedParameters_cons rfl, repeatedParameters_cons rfl,
      repeatedParameters_cons rfl, repeatedParameters_cons rfl, ih]

lemma repeatedParameters_repeatedNames (repeated : Nat) :
    repeatedParameters (repeatedNames repeated) = 0 := by
  induction repeated with
  | zero => rfl
  | succ repeated ih =>
    rw [repeatedNames, repeatedParameters_cons rfl, repeatedParameters_cons rfl, ih]

/-- All parameters but the first are repeated. -/
lemma repeatedParameters_repeatedHeader (repeated : Nat) :
    repeatedParameters (repeatedHeader repeated) = repeated := by
  have hnames : parameterNames (repeatedHeader repeated) = List.replicate (repeated + 1) "a" := by
    change leadingNames true (repeatedNames repeated) = _
    induction repeated with
    | zero => rfl
    | succ repeated ih => exact congrArg ("a" :: ·) ih
  have hrepeats : repeats (List.replicate (repeated + 1) "a") = repeated := by
    rw [repeats, List.length_replicate, List.toFinset_replicate_of_ne_zero (Nat.succ_ne_zero _),
      Finset.card_singleton, Nat.add_sub_cancel]
  calc repeatedParameters (repeatedHeader repeated)
    _ = repeats (parameterNames (repeatedHeader repeated)) +
        repeatedParameters (.symbol .openParen :: repeatedNames repeated) := rfl
    _ = repeated := by
      rw [hnames, hrepeats, repeatedParameters_cons rfl, repeatedParameters_repeatedNames,
        Nat.add_zero]

lemma repeatedParameters_fillingFunction (repeated : Nat) :
    repeatedParameters (fillingFunction repeated) = repeated := by
  rw [fillingFunction, repeatedParameters_openedFunctions, semicolons, repeatedParameters_signs,
    repeatedParameters_cons rfl, repeatedParameters_cons rfl, repeatedParameters_repeatedHeader]

lemma repeatedParameters_worstTokens (braces repeated : Nat) :
    repeatedParameters (worstTokens braces repeated) = repeated := by
  cases braces with
  | zero =>
    rw [worstTokens, semicolons, repeatedParameters_signs, repeatedParameters_repeatedHeader]
  | succ braces =>
    rw [worstTokens, repeatedParameters_signs, repeatedParameters_cons rfl,
      repeatedParameters_openedFunctions, repeatedParameters_fillingFunction]

/-! ### The maximum -/

lemma suffix_openedFunctions (depth : Nat) (ks : List TokenKind) :
    ks <:+ openedFunctions depth ks := by
  induction depth with
  | zero => exact List.suffix_refl _
  | succ depth ih => exact ih.trans (List.suffix_append [_, _, _, _] _)

/-- The mark of the end stands last. -/
lemma end_suffix_worstTokens (braces repeated : Nat) :
    [.endOfFile] <:+ worstTokens braces repeated := by
  have hnames : [.endOfFile] <:+ repeatedNames repeated := by
    induction repeated with
    | zero => exact List.suffix_cons _ _
    | succ repeated ih => exact ih.trans (List.suffix_append [_, _] _)
  have hheader : [.endOfFile] <:+ repeatedHeader repeated :=
    hnames.trans (List.suffix_append [_, _] _)
  have hfilling : repeatedHeader repeated <:+ fillingFunction repeated :=
    ((List.suffix_append [_, _] _).trans (List.suffix_append _ _)).trans
      (suffix_openedFunctions 1 _)
  cases braces with
  | zero => exact hheader.trans (List.suffix_append _ _)
  | succ braces =>
    have hopened := (hheader.trans hfilling).trans
      (suffix_openedFunctions (min (maxNesting - 1) braces) _)
    exact (hopened.trans (List.suffix_cons _ _)).trans (List.suffix_append _ _)

/-- These tokens use up the budget. -/
lemma total_parseTokens_worstTokens {tokens : List Token} {braces repeated : Nat}
    (h : tokens.map (·.kind) = worstTokens braces repeated) :
    (parseTokens tokens).2.total = ErrorList.capacity + min maxNesting braces + repeated := by
  obtain ⟨ks, hks⟩ := end_suffix_worstTokens braces repeated
  have hkinds : (Cursor.ofTokens tokens).kinds = worstTokens braces repeated := by
    rw [Cursor.kinds_ofTokens_of_ended (h.trans hks.symm), hks]
  have hstands : (Cursor.ofTokens tokens).Stands (worstTokens braces repeated) 0 := ⟨hkinds, rfl⟩
  have hgoes : Parser.Goes (Parser.programStatements (Parser.expression maxNesting)
      (worstTokens braces repeated).length) (worstTokens braces repeated) 0 true [.endOfFile]
      (ErrorList.capacity + min maxNesting braces + repeated) := by
    cases braces with
    | zero => exact Parser.Goes.programStatements_semicolons repeated
    | succ braces =>
      have htotal : ErrorList.capacity + repeated + 1 + min (maxNesting - 1) braces =
          ErrorList.capacity + min maxNesting (braces + 1) + repeated := by
        unfold maxNesting
        omega
      rw [← htotal]
      exact Parser.Goes.programStatements_openedFunctions braces repeated
  have htotal := (hgoes _ hstands).2.total
  rw [← hstands.length] at htotal
  exact htotal

/-- The numbers of errors that are reported for tokens with a number of braces that are open at once
and a number of parameters that are repeated. -/
def errorTotals (braces repeated : Nat) : Set Nat :=
  {total | ∃ tokens : List Token, mostBraces 0 (tokens.map (·.kind)) = braces ∧
    repeatedParameters (tokens.map (·.kind)) = repeated ∧ (parseTokens tokens).2.total = total}

/-- The whole budget can be used up. -/
lemma budget_mem_errorTotals (braces repeated : Nat) :
    ErrorList.capacity + min maxNesting braces + repeated ∈ errorTotals braces repeated := by
  let tokens : List Token := (worstTokens braces repeated).map (⟨·, .point .origin⟩)
  have hkinds : tokens.map (·.kind) = worstTokens braces repeated := by
    rw [List.map_map]
    exact List.map_id _
  refine ⟨tokens, ?_, ?_, total_parseTokens_worstTokens hkinds⟩
  · rw [hkinds, mostBraces_worstTokens]
  · rw [hkinds, repeatedParameters_worstTokens]

/-- Besides the errors that a list keeps, there is at most one for each of the braces that are open
at once, up to the deepest nesting, and one for each parameter that is repeated; and so many there
can be.  So a list never misses more than one error exactly if these are one at most. -/
theorem errorTotals_sharp (braces repeated : Nat) :
    IsGreatest (errorTotals braces repeated)
        (ErrorList.capacity + min maxNesting braces + repeated) ∧
      ((∀ total ∈ errorTotals braces repeated, total ≤ ErrorList.capacity + 1) ↔
        min maxNesting braces + repeated ≤ 1) := by
  have hbound : ∀ total ∈ errorTotals braces repeated,
      total ≤ ErrorList.capacity + min maxNesting braces + repeated := by
    rintro total ⟨tokens, rfl, rfl, rfl⟩
    exact total_parseTokens_le tokens
  have hreached := budget_mem_errorTotals braces repeated
  constructor
  · exact ⟨hreached, hbound⟩
  · constructor
    · intro hall
      have hle := hall _ hreached
      omega
    · intro hfew total htotal
      have hle := hbound total htotal
      omega

/-- A function whose parameter is repeated again and again, and whose list of parameters is not
closed. -/
theorem capacity_exceeded_by_parameters : ErrorList.capacity + 1 <
    (parseTokens (scan
      "unda(a,a,a,a,a,a,a,a,a,a,a,a,a,a,a,a,a,a,a,a,a,a").1).2.total := by
  decide +kernel

end Lugha
