import Lugha.Proofs.Cursors
import Lugha.Proofs.Rounds
import Lugha.Proofs.Spans
import Lugha.Proofs.Spelling

/-!
# Printing and reading again

`Expr.tokens` and its companions print a tree: a semicolon stands after every statement, commas
stand between arguments and parameters only, and every function is written with its own name.

A printed tree is read again by the parser that belongs to it.  `Parser.Reads` says that a parser
reads given tokens as a given result and stops before the rest.  All tokens stand at the same
place here, so that the result is the tree without its spans.  There is one lemma for each kind
of tree, about the parser of its own tokens; the parts are read by induction.
-/

namespace Lugha

/-! ### Printed trees -/

/-- Lists of tokens with commas between them. -/
def separated : List (List TokenKind) → List TokenKind
  | [] => []
  | [ts] => ts
  | ts :: us :: rest => ts ++ .symbol .comma :: separated (us :: rest)

mutual

/-- Prints an expression. -/
def Expr.tokens : Expr → List TokenKind
  | .number _ x => [.number x]
  | .text _ t => [.text t]
  | .boolean _ b => [.keyword (if b then .kweli else .sikweli)]
  | .null _ => [.keyword .tupu]
  | .name _ n => [.name n]
  | .call _ callee args =>
    callee.tokens ++ .symbol .openParen ::
      (separated (Expr.tokensEach args) ++ [.symbol .closeParen])
  | .binary _ op left right => left.tokens ++ .symbol op.symbol :: right.tokens
  | .unary _ op operand => .symbol op.symbol :: operand.tokens
  | .conditional branches => branches.tokens
  | .loop _ condition body =>
    .keyword .wakati :: .symbol .openParen ::
      (condition.tokens ++ .symbol .closeParen :: body.tokens)
  | .function _ name params body =>
    functionHead name ++ .symbol .openParen ::
      (separated (params.map fun i => [.name i.name]) ++ .symbol .closeParen :: body.tokens)
  | .paren _ inner => .symbol .openParen :: (inner.tokens ++ [.symbol .closeParen])

/-- Prints expressions one by one. -/
def Expr.tokensEach : List Expr → List (List TokenKind)
  | [] => []
  | e :: es => e.tokens :: Expr.tokensEach es

/-- Prints a conditional. -/
def Conditional.tokens : Conditional → List TokenKind
  | .ifThen _ condition yes =>
    .keyword .kama :: .symbol .openParen ::
      (condition.tokens ++ .symbol .closeParen :: yes.tokens)
  | .ifElse _ condition yes no =>
    .keyword .kama :: .symbol .openParen ::
      (condition.tokens ++ .symbol .closeParen :: (yes.tokens ++ .keyword .sivyo :: no.tokens))
  | .elseIf _ condition yes next =>
    .keyword .kama :: .symbol .openParen ::
      (condition.tokens ++ .symbol .closeParen :: (yes.tokens ++ .keyword .sivyo :: next.tokens))

/-- Prints a block. -/
def Block.tokens : Block → List TokenKind
  | .mk _ stmts => .symbol .openBrace :: (Stmt.tokensList stmts ++ [.symbol .closeBrace])

/-- Prints statements with a semicolon after each. -/
def Stmt.tokensList : List Stmt → List TokenKind
  | [] => []
  | stmt :: stmts => stmt.tokens ++ .symbol .semicolon :: Stmt.tokensList stmts

/-- Prints a statement without the semicolon after it. -/
def Stmt.tokens : Stmt → List TokenKind
  | .bind _ name value =>
    .keyword .fanya :: .name name.name :: .symbol .assign :: value.tokens
  | .assign _ name value => .name name.name :: .symbol .assign :: value.tokens
  | .returnValue _ value => .keyword .rudisha :: value.tokens
  | .returnNothing _ => [.keyword .rudisha]
  | .breakLoop _ => [.keyword .vunja]
  | .continueLoop _ => [.keyword .endelea]
  | .expr value => value.tokens

end

/-- An expression is printed alike where it stands as a statement. -/
lemma Stmt.tokens_expr (value : Expr) : (Stmt.expr value).tokens = value.tokens := by
  rw [Stmt.tokens]

/-- Prints a program. -/
def Program.tokens (p : Program) : List TokenKind := Stmt.tokensList p.stmts

/-! ### Tokens that all stand at one place -/

namespace Cursor

/-- Stands before given tokens, all of which stand at one place. -/
def ofKinds (ks : List TokenKind) : Cursor := ⟨ks.map (⟨·, .synthetic⟩), .synthetic, .empty⟩

variable (k : TokenKind) (ks : List TokenKind)

@[simp] lemma peek_ofKinds : (ofKinds (k :: ks)).peek = ⟨k, .synthetic⟩ := rfl

@[simp] lemma kind_ofKinds : (ofKinds (k :: ks)).kind = k := rfl

@[simp] lemma span_ofKinds : (ofKinds ks).span = .synthetic := by
  cases ks <;> rfl

@[simp] lemma previous_ofKinds : (ofKinds ks).previous = .synthetic := rfl

@[simp] lemma advance_ofKinds : (ofKinds (k :: ks)).advance = ofKinds ks := rfl

@[simp] lemma isFull_ofKinds : (ofKinds ks).faults.isFull = false := rfl

@[simp] lemma length_ofKinds : (ofKinds ks).rest.length = ks.length := by
  simp [ofKinds]

@[simp] lemma kinds_ofKinds : (ofKinds ks).rest.map (·.kind) = ks := by
  simp [ofKinds, Function.comp_def]

@[simp] lemma atSymbol_ofKinds (s : Symbol) :
    (ofKinds (.symbol s :: ks)).atSymbol s = true := by
  simp [atSymbol_iff]

/-- Another sign does not stand here. -/
lemma atSymbol_ofKinds_of_ne {s : Symbol} (h : k ≠ .symbol s) :
    (ofKinds (k :: ks)).atSymbol s = false := by
  rw [← Bool.not_eq_true, atSymbol_iff]
  exact h

/-- Before the mark of the end, tokens are not at an end. -/
lemma atEnd_ofKinds_of_ne (h : k ≠ .endOfFile) : (ofKinds (k :: ks)).atEnd = false := by
  rw [← Bool.not_eq_true, atEnd_iff]
  exact h

end Cursor

/-- Two spans at one place. -/
@[simp] lemma Span.merge_synthetic : Span.synthetic.merge .synthetic = .synthetic := by decide

/-- A forgotten span. -/
@[simp] lemma Span.forget_eq (s : Span) : s.forget = .synthetic := rfl

/-! ### Parsers that read given tokens -/

namespace Parser

variable {α β : Type}

/-- A parser reads given tokens as a given result and stops before the rest. -/
def Reads (p : Parser α) (ts : List TokenKind) (a : α) (rest : List TokenKind) : Prop :=
  p (.ofKinds (ts ++ rest)) = (some a, .ofKinds rest)

namespace Reads

variable {p : Parser α} {f : α → Parser β} {a : α} {b : β} {ts us rest : List TokenKind}

/-- One parser after another. -/
lemma andThen (hp : p.Reads ts a (us ++ rest)) (hf : (f a).Reads us b rest) :
    (p >>= f).Reads (ts ++ us) b rest := by
  change Parser.andThen p f _ = _
  unfold Parser.andThen
  rw [List.append_assoc, hp]
  exact hf

/-- A parser that reads one token, and another one after it. -/
lemma cons {k : TokenKind} (hp : p.Reads [k] a (us ++ rest)) (hf : (f a).Reads us b rest) :
    (p >>= f).Reads (k :: us) b rest :=
  hp.andThen hf

/-- A parser that reads no tokens. -/
lemma idle (hp : p.Reads [] a (us ++ rest)) (hf : (f a).Reads us b rest) :
    (p >>= f).Reads us b rest :=
  hp.andThen hf

/-- A result without reading. -/
lemma pure {b' : β} (hb : b = b') : (Pure.pure b : Parser β).Reads [] b' rest := by
  subst hb
  rfl

/-- A parser that reads all tokens, and another one that reads none. -/
lemma last (hp : p.Reads ts a rest) (hf : (f a).Reads [] b rest) : (p >>= f).Reads ts b rest := by
  have hlast := andThen (f := f) (b := b) (p := p) (a := a) hp hf
  rwa [List.append_nil] at hlast

end Reads

variable {rest : List TokenKind}

/-- The next token is read. -/
lemma reads_next (k : TokenKind) : next.Reads [k] ⟨k, .synthetic⟩ rest := rfl

/-- A sign that stands here is read. -/
lemma reads_expect (s : Symbol) : (expect s).Reads [.symbol s] ⟨.symbol s, .synthetic⟩ rest := by
  simp [Reads, expect, next]

/-- A bracket that is closed here is read. -/
lemma reads_close (s : Symbol) (opened : Span) :
    (close s opened).Reads [.symbol s] ⟨.symbol s, .synthetic⟩ rest := by
  have hend : (Cursor.ofKinds (.symbol s :: rest)).atEnd = false := rfl
  simp [Reads, close, hend, expect, next]

/-- A name is read. -/
lemma reads_ident (n : String) : ident.Reads [.name n] ⟨n, .synthetic⟩ rest := by
  simp [Reads, ident]

/-- Looking reads nothing. -/
lemma reads_look {g : Cursor → α} {a : α} (h : g (.ofKinds rest) = a) :
    (look g).Reads [] a rest := by
  subst h
  rfl

end Parser

/-! ### What follows an expression, and what it begins with -/

/-- How strongly a token draws what stands before it into a larger expression: an operator draws
what binds more tightly than itself, an opening parenthesis draws callees, and `sivyo` draws
conditionals. -/
def TokenKind.pull : TokenKind → Nat
  | .symbol s =>
    match s with
    | .either => 1
    | .both => 2
    | .equal | .notEqual | .less | .lessEqual | .greater | .greaterEqual => 3
    | .plus | .minus => 4
    | .star | .slash | .percent => 5
    | .openParen => 6
    | _ => 0
  | .keyword .sivyo => 7
  | _ => 0

/-- How strongly the first of some tokens draws what stands before them. -/
def pull : List TokenKind → Nat
  | [] => 0
  | k :: _ => k.pull

/-- Whether an expression can begin with a token. -/
def TokenKind.opens : TokenKind → Bool
  | .number _ | .text _ | .name _ => true
  | .keyword k =>
    match k with
    | .kweli | .sikweli | .tupu | .kama | .wakati | .unda | .kazi => true
    | _ => false
  | .symbol s =>
    match s with
    | .openParen | .bang | .minus => true
    | _ => false
  | .endOfFile => false

namespace Expr

/-- The first token of an expression. -/
lemma tokens_eq_cons : ∀ e : Expr, ∃ k ks, e.tokens = k :: ks ∧ k.opens
  | .number _ x => ⟨_, _, rfl, rfl⟩
  | .text _ t => ⟨_, _, rfl, rfl⟩
  | .boolean _ true => ⟨_, _, rfl, rfl⟩
  | .boolean _ false => ⟨_, _, rfl, rfl⟩
  | .null _ => ⟨_, _, rfl, rfl⟩
  | .name _ n => ⟨_, _, rfl, rfl⟩
  | .call _ callee args => by
    obtain ⟨k, ks, hks, hk⟩ := callee.tokens_eq_cons
    rw [tokens, hks]
    exact ⟨k, _, rfl, hk⟩
  | .binary _ op left right => by
    obtain ⟨k, ks, hks, hk⟩ := left.tokens_eq_cons
    rw [tokens, hks]
    exact ⟨k, _, rfl, hk⟩
  | .unary _ op operand => by
    rw [tokens]
    exact ⟨_, _, rfl, by cases op <;> rfl⟩
  | .conditional branches => by
    rw [tokens]
    cases branches <;> exact ⟨_, _, rfl, rfl⟩
  | .loop _ condition body => ⟨_, _, rfl, rfl⟩
  | .function _ title params body => by
    rw [tokens]
    cases title <;> exact ⟨_, _, rfl, rfl⟩
  | .paren _ inner => ⟨_, _, rfl, rfl⟩

/-- What holds together most tightly does not begin with the sign of an operator. -/
lemma unaryOp?_eq_none : ∀ {e : Expr}, 6 ≤ e.tightness → e.isCanonical →
    ∀ {k ks}, e.tokens = k :: ks → Parser.unaryOp? k = none
  | .number _ x, _, _, _, _, h => by cases h; rfl
  | .text _ t, _, _, _, _, h => by cases h; rfl
  | .boolean _ b, _, _, _, _, h => by cases h; cases b <;> rfl
  | .null _, _, _, _, _, h => by cases h; rfl
  | .name _ n, _, _, _, _, h => by cases h; rfl
  | .call _ callee args, _, hcanonical, k, ks, h => by
    simp only [isCanonical, Bool.and_eq_true, decide_eq_true_eq] at hcanonical
    obtain ⟨⟨htight, hcallee⟩, -⟩ := hcanonical
    obtain ⟨l, ls, hls, -⟩ := callee.tokens_eq_cons
    rw [tokens, hls, List.cons_append] at h
    cases h
    exact unaryOp?_eq_none htight hcallee hls
  | .binary _ op left right, htight, _, _, _, _ => by
    cases op <;> simp [tightness, BinaryOp.tightness] at htight
  | .unary _ op operand, htight, _, _, _, _ => by simp [tightness] at htight
  | .conditional branches, _, _, _, _, h => by
    rw [tokens] at h
    cases branches <;> cases h <;> rfl
  | .loop _ condition body, _, _, _, _, h => by cases h; rfl
  | .function _ title params body, _, _, _, _, h => by
    rw [tokens] at h
    cases title <;> cases h <;> rfl
  | .paren _ inner, _, _, _, _, h => by cases h; rfl

/-- An expression is no assignment, unless the sign of one follows. -/
lemma assigns_eq_false : ∀ (e : Expr) {rest : List TokenKind}, rest.head? ≠ some (.symbol .assign) →
    Parser.assigns (.ofKinds (e.tokens ++ rest)) = false
  | .number _ x, _, _ => rfl
  | .text _ t, _, _ => rfl
  | .boolean _ b, _, _ => rfl
  | .null _, _, _ => rfl
  | .name _ n, rest, h => by
    rw [tokens]
    cases rest with
    | nil => rfl
    | cons k ks =>
      cases k with
      | symbol s =>
        cases s with
        | assign => exact absurd rfl h
        | _ => rfl
      | _ => rfl
  | .call _ callee args, _, _ => by
    rw [tokens, List.append_assoc, List.cons_append]
    exact callee.assigns_eq_false (by simp)
  | .binary _ op left right, _, _ => by
    rw [tokens, List.append_assoc, List.cons_append]
    exact left.assigns_eq_false (by cases op <;> simp [BinaryOp.symbol])
  | .unary _ op operand, _, _ => by
    rw [tokens]
    cases op <;> rfl
  | .conditional branches, _, _ => by
    rw [tokens]
    cases branches <;> rfl
  | .loop _ condition body, _, _ => rfl
  | .function _ title params body, _, _ => by
    rw [tokens]
    cases title <;> rfl
  | .paren _ inner, _, _ => rfl

end Expr

/-- A statement begins neither with a closing brace nor with the mark of the end. -/
lemma Stmt.tokens_eq_cons (stmt : Stmt) : ∃ k ks, stmt.tokens = k :: ks ∧
    k ≠ .symbol .closeBrace ∧ k ≠ .endOfFile := by
  cases stmt with
  | expr value =>
    obtain ⟨k, ks, hks, hk⟩ := value.tokens_eq_cons
    refine ⟨k, ks, hks, ?_, ?_⟩ <;> rintro rfl <;> cases hk
  | _ => exact ⟨_, _, rfl, by simp, by simp⟩

/-! ### Statements -/

/-- A parser of expressions reads an expression again, wherever nothing draws it further. -/
def Expr.ReadBy (expr : Parser Expr) (e : Expr) : Prop :=
  ∀ rest, pull rest = 0 → expr.Reads e.tokens (e.mapSpans .forget) rest

/-- A statement is read again before its semicolon. -/
def Stmt.ReadBy (expr : Parser Expr) (stmt : Stmt) : Prop :=
  ∀ rest, (Parser.unterminated expr).Reads stmt.tokens (stmt.mapSpans .forget)
    (.symbol .semicolon :: rest)

/-- A block is read again. -/
def Block.ReadBy (expr : Parser Expr) (b : Block) : Prop :=
  ∀ rest, (Parser.block expr).Reads b.tokens (b.mapSpans .forget) rest

namespace Stmt

open Lugha.Parser

variable {expr : Parser Expr} {span : Span} {value : Expr}

/-- Binding a name. -/
lemma ReadBy.bind {name : Ident} (hvalue : value.ReadBy expr) (hnamed : value.isNameless = false) :
    (Stmt.bind span name value).ReadBy expr := by
  intro rest
  have hname : (value.mapSpans .forget).named (name.mapSpans .forget) = value.mapSpans .forget := by
    rw [← Expr.mapSpans_named]
    congr 1
    cases value with
    | function _ title _ _ => cases title <;> simp_all [Expr.isNameless, Expr.named]
    | _ => rfl
  have hread : (binding expr).Reads (Stmt.bind span name value).tokens
      ((Stmt.bind span name value).mapSpans .forget) (.symbol .semicolon :: rest) := by
    rw [Stmt.tokens, Stmt.mapSpans]
    refine (reads_next _).cons ((reads_ident _).cons ((reads_expect _).cons ?_))
    refine (hvalue _ rfl).last (.pure ?_)
    simp only [Expr.span_mapSpans, Span.forget_eq, Span.merge_synthetic]
    exact congrArg _ hname
  exact hread

/-- Assigning to a name. -/
lemma ReadBy.assign {name : Ident} (hvalue : value.ReadBy expr) :
    (Stmt.assign span name value).ReadBy expr := by
  intro rest
  have hread : (assignment expr).Reads (Stmt.assign span name value).tokens
      ((Stmt.assign span name value).mapSpans .forget) (.symbol .semicolon :: rest) := by
    rw [Stmt.tokens, Stmt.mapSpans]
    refine (reads_ident _).cons ((reads_expect _).cons ?_)
    refine (hvalue _ rfl).last (.pure ?_)
    simp only [Expr.span_mapSpans, Span.forget_eq, Span.merge_synthetic, Ident.mapSpans]
  exact hread

/-- Returning a value. -/
lemma ReadBy.returnValue (hvalue : value.ReadBy expr) :
    (Stmt.returnValue span value).ReadBy expr := by
  intro rest
  obtain ⟨k, ks, hks, hk⟩ := value.tokens_eq_cons
  have hlook : endsReturn (.ofKinds (value.tokens ++ .symbol .semicolon :: rest)) = false := by
    rw [hks]
    cases k with
    | symbol s => cases s <;> first | rfl | cases hk
    | endOfFile => cases hk
    | _ => rfl
  have hread : (returning expr).Reads (Stmt.returnValue span value).tokens
      ((Stmt.returnValue span value).mapSpans .forget) (.symbol .semicolon :: rest) := by
    rw [Stmt.tokens, Stmt.mapSpans]
    refine (reads_next _).cons ((reads_look hlook).idle ?_)
    refine (hvalue _ rfl).last (.pure ?_)
    simp only [Expr.span_mapSpans, Span.forget_eq, Span.merge_synthetic]
  exact hread

/-- An expression that stands as a statement. -/
lemma ReadBy.bare (hvalue : value.ReadBy expr) : (Stmt.expr value).ReadBy expr := by
  intro rest
  obtain ⟨k, ks, hks, hk⟩ := value.tokens_eq_cons
  have hassigns : assigns (.ofKinds (value.tokens ++ .symbol .semicolon :: rest)) = false :=
    value.assigns_eq_false (by simp)
  have hread : (Parser.bare expr).Reads value.tokens (.expr (value.mapSpans .forget))
      (.symbol .semicolon :: rest) :=
    (hvalue _ rfl).last (.idle (reads_look rfl) (.pure rfl))
  unfold Reads at hread ⊢
  rw [Stmt.tokens_expr, unterminated]
  split
  · next hkind => rw [hks] at hkind; cases hkind; cases hk
  · next hkind => rw [hks] at hkind; cases hkind; cases hk
  · next hkind => rw [hks] at hkind; cases hkind; cases hk
  · next hkind => rw [hks] at hkind; cases hkind; cases hk
  · rw [hassigns]
    exact hread

end Stmt

namespace Parser

variable {expr : Parser Expr} {rest : List TokenKind}

/-- A statement and its semicolon are read. -/
lemma reads_statement {stmt : Stmt} (h : stmt.ReadBy expr) :
    (statement expr).Reads (stmt.tokens ++ [.symbol .semicolon]) (stmt.mapSpans .forget) rest := by
  have heat : (eat .semicolon).Reads [.symbol .semicolon] true rest := by
    simp [Reads, eat]
  exact (h rest).andThen (heat.last (.pure rfl))

/-- One statement is read, and then further ones. -/
lemma reads_oneStatement {more : Parser (List Stmt)} {stmt : Stmt} {stmts : List Stmt}
    {rest : List TokenKind} (h : stmt.ReadBy expr)
    (hmore : more.Reads (Stmt.tokensList stmts) (Stmt.mapSpansList .forget stmts) rest) :
    (oneStatement expr more).Reads (Stmt.tokensList (stmt :: stmts))
      (Stmt.mapSpansList .forget (stmt :: stmts)) rest := by
  have hstatement : (statement expr).Reads _ _ (Stmt.tokensList stmts ++ rest) := reads_statement h
  have hcons := hmore.last (f := fun ss => pure (stmt.mapSpans .forget :: ss)) (.pure rfl)
  have htokens : Stmt.tokensList (stmt :: stmts) ++ rest =
      stmt.tokens ++ [.symbol .semicolon] ++ (Stmt.tokensList stmts ++ rest) := by
    simp [Stmt.tokensList]
  unfold Reads oneStatement
  rw [htokens, hstatement]
  exact hcons

/-- Statements are read by a loop that stops where they end and reads one of them in each round
before. -/
lemma reads_rounds {loop : Nat → Parser (List Stmt)} {rest : List TokenKind}
    (hstop : ∀ rounds, loop (rounds + 1) (.ofKinds rest) = (some [], .ofKinds rest))
    (hround : ∀ rounds {k : TokenKind} {ks : List TokenKind}, k ≠ .symbol .closeBrace →
      k ≠ .endOfFile → loop (rounds + 1) (.ofKinds (k :: ks)) =
        oneStatement expr (loop rounds) (.ofKinds (k :: ks)))
    {stmts : List Stmt} (h : ∀ stmt ∈ stmts, stmt.ReadBy expr) {rounds : Nat}
    (hrounds : (Stmt.tokensList stmts).length < rounds) :
    (loop rounds).Reads (Stmt.tokensList stmts) (Stmt.mapSpansList .forget stmts) rest := by
  induction stmts generalizing rounds with
  | nil =>
    obtain ⟨rounds, rfl⟩ := Nat.exists_eq_succ_of_ne_zero (Nat.ne_zero_of_lt hrounds)
    exact hstop rounds
  | cons stmt stmts ih =>
    obtain ⟨rounds, rfl⟩ := Nat.exists_eq_succ_of_ne_zero (Nat.ne_zero_of_lt hrounds)
    obtain ⟨k, ks, hks, hbrace, hend⟩ := stmt.tokens_eq_cons
    have hlength : (Stmt.tokensList stmts).length < rounds := by
      simp only [Stmt.tokensList, List.length_append, List.length_cons] at hrounds
      omega
    have hmore := ih (fun s hs => h s (List.mem_cons_of_mem _ hs)) hlength
    have hone := reads_oneStatement (h stmt List.mem_cons_self) hmore
    unfold Reads at hone ⊢
    rw [Stmt.tokensList, hks] at hone ⊢
    rw [List.cons_append, List.cons_append] at hone ⊢
    rw [hround rounds hbrace hend, hone]

/-- The statements of a block are read. -/
lemma reads_blockStatements {stmts : List Stmt} (h : ∀ stmt ∈ stmts, stmt.ReadBy expr) {rounds : Nat}
    (hrounds : (Stmt.tokensList stmts).length < rounds) :
    (blockStatements expr rounds).Reads (Stmt.tokensList stmts) (Stmt.mapSpansList .forget stmts)
      (.symbol .closeBrace :: rest) := by
  refine reads_rounds (fun rounds => ?_) (fun rounds k ks hbrace hend => ?_) h hrounds
  · rw [blockStatements_succ]
    rfl
  · rw [blockStatements_succ, if_neg ?_]
    simp only [Cursor.atSymbol_ofKinds_of_ne _ _ hbrace, Cursor.atEnd_ofKinds_of_ne _ _ hend,
      Cursor.isFull_ofKinds]
    decide

/-- The statements of a program are read. -/
lemma reads_programStatements {stmts : List Stmt} (h : ∀ stmt ∈ stmts, stmt.ReadBy expr)
    {rounds : Nat} (hrounds : (Stmt.tokensList stmts).length < rounds) :
    (programStatements expr rounds).Reads (Stmt.tokensList stmts)
      (Stmt.mapSpansList .forget stmts) [.endOfFile] := by
  refine reads_rounds (fun rounds => ?_) (fun rounds k ks hbrace hend => ?_) h hrounds
  · rw [programStatements_succ]
    rfl
  · rw [programStatements_succ, if_neg ?_, if_neg ?_]
    · simp only [Cursor.atSymbol_ofKinds_of_ne _ _ hbrace]
      decide
    · simp only [Cursor.atEnd_ofKinds_of_ne _ _ hend, Cursor.isFull_ofKinds]
      decide

end Parser

/-- A block. -/
lemma Block.ReadBy.mk {expr : Parser Expr} {span : Span} {stmts : List Stmt}
    (h : ∀ stmt ∈ stmts, stmt.ReadBy expr) : (Block.mk span stmts).ReadBy expr := by
  intro rest
  rw [Block.tokens, Block.mapSpans]
  refine (Parser.reads_expect _).cons ?_
  have hstmts : Parser.Reads (fun c => Parser.blockStatements expr c.rest.length c)
      (Stmt.tokensList stmts) (Stmt.mapSpansList .forget stmts) (.symbol .closeBrace :: rest) :=
    Parser.reads_blockStatements h (by simp)
  refine Parser.Reads.andThen hstmts ((Parser.reads_close _ _).last (.pure ?_))
  simp only [Span.forget_eq, Span.merge_synthetic]

/-! ### Arguments and calls -/

/-- The first of several lists stands first. -/
lemma separated_cons (ts : List TokenKind) (rest : List (List TokenKind)) :
    ∃ us, separated (ts :: rest) = ts ++ us := by
  cases rest with
  | nil => exact ⟨[], (List.append_nil ts).symm⟩
  | cons us rest => exact ⟨_, rfl⟩

/-- What begins an expression does not close its parentheses. -/
lemma TokenKind.ne_closeParen_of_opens {k : TokenKind} (h : k.opens) : k ≠ .symbol .closeParen := by
  rintro rfl
  cases h

namespace Parser

variable {expr : Parser Expr} {rest : List TokenKind}

/-- Before arguments, no parenthesis is closed. -/
lemma atSymbol_tokensEach (e : Expr) (es : List Expr) (rest : List TokenKind) :
    (Cursor.ofKinds (separated (Expr.tokensEach (e :: es)) ++ rest)).atSymbol .closeParen =
      false := by
  obtain ⟨us, hus⟩ := separated_cons e.tokens (Expr.tokensEach es)
  obtain ⟨k, ks, hks, hk⟩ := e.tokens_eq_cons
  rw [Expr.tokensEach, hus, hks]
  exact Cursor.atSymbol_ofKinds_of_ne _ _ (TokenKind.ne_closeParen_of_opens hk)

/-- Arguments are read. -/
lemma reads_arguments {e : Expr} {es : List Expr} (h : ∀ a ∈ e :: es, a.ReadBy expr) {rounds : Nat}
    (hrounds : (separated (Expr.tokensEach (e :: es))).length ≤ rounds) :
    Reads (arguments expr rounds) (separated (Expr.tokensEach (e :: es)))
      (Expr.mapSpansList .forget (e :: es)) (.symbol .closeParen :: rest) := by
  induction es generalizing e rounds with
  | nil =>
    obtain ⟨k, ks, hks, -⟩ := e.tokens_eq_cons
    obtain ⟨rounds, rfl⟩ : ∃ n, rounds = n + 1 := by
      refine Nat.exists_eq_succ_of_ne_zero fun hzero => ?_
      simp [Expr.tokensEach, separated, hks, hzero] at hrounds
    rw [arguments_succ]
    exact (h e List.mem_cons_self _ rfl).last rfl
  | cons e' es ih =>
    have htokens : separated (Expr.tokensEach (e :: e' :: es)) =
        e.tokens ++ .symbol .comma :: separated (Expr.tokensEach (e' :: es)) := by
      simp [Expr.tokensEach, separated]
    rw [htokens, List.length_append, List.length_cons] at hrounds
    obtain ⟨rounds, rfl⟩ : ∃ n, rounds = n + 1 := ⟨rounds - 1, by omega⟩
    have hlength : (separated (Expr.tokensEach (e' :: es))).length ≤ rounds := by omega
    have hmore := ih (fun a ha => h a (List.mem_cons_of_mem _ ha)) hlength
    have hfurther : (furtherArguments expr rounds (e.mapSpans .forget)).Reads
        (.symbol .comma :: separated (Expr.tokensEach (e' :: es)))
        (Expr.mapSpansList .forget (e :: e' :: es)) (.symbol .closeParen :: rest) := by
      have hlast := hmore.last (f := fun es => pure (e.mapSpans .forget :: es)) (.pure rfl)
      unfold Reads furtherArguments
      rw [List.cons_append, if_pos (Cursor.atSymbol_ofKinds ..), Cursor.advance_ofKinds,
        atSymbol_tokensEach]
      exact hlast
    rw [htokens, arguments_succ]
    exact (h e List.mem_cons_self _ rfl).andThen hfurther

/-- The arguments of a call are read. -/
lemma reads_argumentList {args : List Expr} (h : ∀ a ∈ args, a.ReadBy expr) :
    (argumentList expr).Reads (separated (Expr.tokensEach args)) (Expr.mapSpansList .forget args)
      (.symbol .closeParen :: rest) := by
  cases args with
  | nil => rfl
  | cons e es =>
    unfold Reads argumentList
    rw [atSymbol_tokensEach]
    exact reads_arguments h (by simp)

/-- One argument list after a callee is read. -/
lemma reads_call {callee : Expr} {args : List Expr} (h : ∀ a ∈ args, a.ReadBy expr) :
    (call expr (callee.mapSpans .forget)).Reads
      (.symbol .openParen :: (separated (Expr.tokensEach args) ++ [.symbol .closeParen]))
      (.call .synthetic (callee.mapSpans .forget) (Expr.mapSpansList .forget args)) rest := by
  refine (reads_next _).cons ((reads_argumentList h).andThen ?_)
  refine (reads_close _ _).last (.pure ?_)
  simp only [Expr.span_mapSpans, Span.forget_eq, Span.merge_synthetic]

/-! ### Conditionals and loops -/

/-- A condition between parentheses is read. -/
lemma reads_condition {e : Expr} (h : e.ReadBy expr) :
    (condition expr).Reads (.symbol .openParen :: (e.tokens ++ [.symbol .closeParen]))
      (e.mapSpans .forget) rest :=
  (reads_expect _).cons ((h _ rfl).andThen ((reads_close _ _).last (.pure rfl)))

/-- The end of what was read last. -/
lemma reads_previous : (look (·.previous)).Reads [] .synthetic rest := rfl

end Parser

/-- A conditional is read again, wherever no alternative follows. -/
def Conditional.ReadBy (expr : Parser Expr) (k : Conditional) : Prop :=
  ∀ rest rounds, pull rest ≤ 6 → k.tokens.length ≤ rounds →
    (Parser.conditional expr rounds).Reads k.tokens (k.mapSpans .forget) rest

namespace Conditional

open Lugha.Parser

variable {expr : Parser Expr} {span : Span} {condition : Expr} {yes no : Block}

/-- A conditional is read up to its first block, and then what follows. -/
lemma reads_conditional {k : Conditional} {us rest : List TokenKind} {rounds : Nat}
    (hcondition : condition.ReadBy expr) (hyes : yes.ReadBy expr)
    (halternative : (alternative expr rounds ⟨.keyword .kama, .synthetic⟩
      (condition.mapSpans .forget) (yes.mapSpans .forget)).Reads us k rest) :
    (conditional expr (rounds + 1)).Reads
      (.keyword .kama :: .symbol .openParen ::
        (condition.tokens ++ .symbol .closeParen :: (yes.tokens ++ us))) k rest := by
  have htokens : .symbol .openParen ::
        (condition.tokens ++ .symbol .closeParen :: (yes.tokens ++ us)) =
      .symbol .openParen :: (condition.tokens ++ [.symbol .closeParen]) ++ (yes.tokens ++ us) := by
    simp
  rw [conditional_succ, htokens]
  exact (reads_next _).cons ((reads_condition hcondition).andThen ((hyes _).andThen halternative))

/-- A conditional without alternative. -/
lemma ReadBy.ifThen (hcondition : condition.ReadBy expr) (hyes : yes.ReadBy expr) :
    (Conditional.ifThen span condition yes).ReadBy expr := by
  intro rest rounds hpull hrounds
  obtain ⟨rounds, rfl⟩ := Nat.exists_eq_succ_of_ne_zero (Nat.ne_zero_of_lt hrounds)
  have hlook : (Cursor.ofKinds rest).atKeyword .sivyo = false := by
    rw [← Bool.not_eq_true, Cursor.atKeyword_iff]
    intro hkind
    cases rest with
    | nil => cases hkind
    | cons k ks =>
      obtain rfl : k = .keyword .sivyo := hkind
      simp [pull, TokenKind.pull] at hpull
  have hnone : (alternative expr rounds ⟨.keyword .kama, .synthetic⟩
      (condition.mapSpans .forget) (yes.mapSpans .forget)).Reads []
      ((Conditional.ifThen span condition yes).mapSpans .forget) rest := by
    refine (reads_look hlook).idle ?_
    refine reads_previous.idle (.pure ?_)
    simp only [Conditional.mapSpans, Span.forget_eq, Span.merge_synthetic]
  have hread := reads_conditional hcondition hyes hnone
  rwa [List.append_nil] at hread

/-- A conditional with a block as alternative. -/
lemma ReadBy.ifElse (hcondition : condition.ReadBy expr) (hyes : yes.ReadBy expr)
    (hno : no.ReadBy expr) : (Conditional.ifElse span condition yes no).ReadBy expr := by
  intro rest rounds _ hrounds
  obtain ⟨rounds, rfl⟩ := Nat.exists_eq_succ_of_ne_zero (Nat.ne_zero_of_lt hrounds)
  have hlook : (Cursor.ofKinds (no.tokens ++ rest)).atKeyword .kama = false := by
    cases no
    rfl
  refine reads_conditional hcondition hyes ?_
  refine Reads.idle (reads_look rfl) ((reads_next _).cons ((reads_look hlook).idle ?_))
  refine (hno rest).last (reads_previous.idle (.pure ?_))
  simp only [Conditional.mapSpans, Span.forget_eq, Span.merge_synthetic]

/-- A conditional with a further one as alternative. -/
lemma ReadBy.elseIf {next : Conditional} (hcondition : condition.ReadBy expr)
    (hyes : yes.ReadBy expr) (hnext : next.ReadBy expr) :
    (Conditional.elseIf span condition yes next).ReadBy expr := by
  intro rest rounds hpull hrounds
  obtain ⟨rounds, rfl⟩ := Nat.exists_eq_succ_of_ne_zero (Nat.ne_zero_of_lt hrounds)
  have hlook : (Cursor.ofKinds (next.tokens ++ rest)).atKeyword .kama = true := by
    cases next <;> rfl
  have hlength : next.tokens.length ≤ rounds := by
    simp only [Conditional.tokens, List.length_append, List.length_cons] at hrounds
    omega
  refine reads_conditional hcondition hyes ?_
  refine Reads.idle (reads_look rfl) ((reads_next _).cons ((reads_look hlook).idle ?_))
  refine (hnext rest rounds hpull hlength).last (reads_previous.idle (.pure ?_))
  simp only [Conditional.mapSpans, Span.forget_eq, Span.merge_synthetic]

end Conditional

/-! ### Functions -/

namespace Parser

variable {expr : Parser Expr} {rest : List TokenKind}

/-- Prints a list of parameters. -/
def parameterTokens (params : List Ident) : List TokenKind :=
  separated (params.map fun i => [.name i.name])

/-- Before parameters, no parenthesis is closed. -/
lemma atSymbol_parameterTokens (param : Ident) (params : List Ident) (rest : List TokenKind) :
    (Cursor.ofKinds (parameterTokens (param :: params) ++ rest)).atSymbol .closeParen = false := by
  obtain ⟨us, hus⟩ := separated_cons [.name param.name] (params.map fun i => [.name i.name])
  rw [parameterTokens, List.map_cons, hus]
  rfl

/-- A parameter that was not given before is read, and then what follows. -/
lemma reads_parameters_succ {given params : List Ident} {param : Ident} {us : List TokenKind}
    {rounds : Nat} {all : List Ident}
    (hdistinct : ((given ++ param :: params).map (·.name)).Nodup)
    (hfurther : (furtherParameters rounds (given ++ [param.mapSpans .forget])).Reads us all rest) :
    (parameters (rounds + 1) given).Reads (.name param.name :: us) all rest := by
  have hnew : given.any (·.name == param.name) = false := by
    rw [List.map_append, List.nodup_append] at hdistinct
    rw [List.any_eq_false]
    intro i hi
    have hne := hdistinct.2.2 _ (List.mem_map_of_mem hi) param.name (by simp)
    simpa using hne
  rw [parameters_succ]
  refine (reads_ident _).cons ?_
  dsimp only
  rw [hnew]
  exact hfurther

/-- Parameters are read after others that were given before. -/
lemma reads_parameters {given : List Ident} {param : Ident} {params : List Ident}
    (hdistinct : ((given ++ param :: params).map (·.name)).Nodup) {rounds : Nat}
    (hrounds : (parameterTokens (param :: params)).length ≤ rounds) :
    (parameters rounds given).Reads (parameterTokens (param :: params))
      (given ++ (param :: params).map (·.mapSpans .forget)) (.symbol .closeParen :: rest) := by
  induction params generalizing given param rounds with
  | nil =>
    obtain ⟨rounds, rfl⟩ := Nat.exists_eq_succ_of_ne_zero (Nat.ne_zero_of_lt hrounds)
    exact reads_parameters_succ hdistinct rfl
  | cons param' params ih =>
    have htokens : parameterTokens (param :: param' :: params) =
        .name param.name :: .symbol .comma :: parameterTokens (param' :: params) := rfl
    rw [htokens, List.length_cons, List.length_cons] at hrounds
    obtain ⟨rounds, rfl⟩ : ∃ n, rounds = n + 1 := ⟨rounds - 1, by omega⟩
    have hlength : (parameterTokens (param' :: params)).length ≤ rounds := by omega
    have hnames : ((given ++ [param.mapSpans .forget] ++ param' :: params).map (·.name)).Nodup := by
      simpa using hdistinct
    have hmore := ih hnames hlength
    rw [List.append_assoc, List.singleton_append] at hmore
    rw [htokens]
    refine reads_parameters_succ hdistinct ?_
    unfold Reads furtherParameters
    rw [List.cons_append, eat_andThen, if_pos (Cursor.atSymbol_ofKinds ..), Cursor.advance_ofKinds]
    exact Reads.idle (reads_look (atSymbol_parameterTokens param' params _)) hmore

/-- The parameters and the body of a function are read. -/
lemma reads_functionRest (name : Option Ident) {params : List Ident} {body : Block}
    (hdistinct : distinctNames params) (hbody : body.ReadBy expr) :
    (functionRest expr (name.map (·.mapSpans .forget)) .synthetic).Reads
      (.symbol .openParen :: (parameterTokens params ++ .symbol .closeParen :: body.tokens))
      (.function .synthetic (name.map (·.mapSpans .forget)) (params.map (·.mapSpans .forget))
        (body.mapSpans .forget)) rest := by
  have hparams : Reads (fun c => if c.atSymbol .closeParen then (some [], c)
      else parameters c.rest.length [] c) (parameterTokens params)
      (params.map (·.mapSpans .forget)) (.symbol .closeParen :: (body.tokens ++ rest)) := by
    cases params with
    | nil => rfl
    | cons param params =>
      have hnames : ((([] : List Ident) ++ param :: params).map (·.name)).Nodup :=
        of_decide_eq_true hdistinct
      unfold Reads
      beta_reduce
      rw [atSymbol_parameterTokens]
      exact reads_parameters hnames (by simp)
  refine (reads_expect _).cons (Reads.andThen hparams ?_)
  refine (reads_close _ _).cons ((hbody rest).last (.pure ?_))
  simp only [Block.span_mapSpans, Span.forget_eq, Span.merge_synthetic]

/-! ### Operands with their own beginning -/

/-- An operand of one token is read. -/
lemma reads_boolean (b : Bool) :
    (primary expr).Reads [.keyword (if b then .kweli else .sikweli)] (.boolean .synthetic b) rest := by
  cases b <;> rfl

/-- An expression between parentheses is read. -/
lemma reads_paren {span : Span} {e : Expr} (h : e.ReadBy expr) :
    (primary expr).Reads (Expr.paren span e).tokens ((Expr.paren span e).mapSpans .forget) rest := by
  have hread : (parenthesized expr .synthetic).Reads (Expr.paren span e).tokens
      ((Expr.paren span e).mapSpans .forget) rest := by
    rw [Expr.tokens, Expr.mapSpans]
    refine (reads_next _).cons ((h _ rfl).andThen ((reads_close _ _).last (.pure ?_)))
    simp only [Span.forget_eq, Span.merge_synthetic]
  exact hread

/-- A loop is read. -/
lemma reads_loop {span : Span} {e : Expr} {body : Block} (h : e.ReadBy expr)
    (hbody : body.ReadBy expr) :
    (primary expr).Reads (Expr.loop span e body).tokens ((Expr.loop span e body).mapSpans .forget)
      rest := by
  have htokens : (Expr.loop span e body).tokens =
      .keyword .wakati :: (.symbol .openParen :: (e.tokens ++ [.symbol .closeParen]) ++ body.tokens) := by
    simp [Expr.tokens]
  have hread : (loop expr).Reads (Expr.loop span e body).tokens
      ((Expr.loop span e body).mapSpans .forget) rest := by
    rw [htokens, Expr.mapSpans]
    refine (reads_next _).cons ((reads_condition h).andThen ((hbody _).last ?_))
    refine reads_previous.idle (.pure ?_)
    simp only [Span.forget_eq, Span.merge_synthetic]
  exact hread

/-- A function is read. -/
lemma reads_function {span : Span} {name : Option Ident} {params : List Ident} {body : Block}
    (hdistinct : distinctNames params) (hbody : body.ReadBy expr) :
    (primary expr).Reads (Expr.function span name params body).tokens
      ((Expr.function span name params body).mapSpans .forget) rest := by
  have hrest : (functionRest expr (name.map (·.mapSpans .forget)) .synthetic).Reads _ _ rest :=
    reads_functionRest name hdistinct hbody
  cases name with
  | none =>
    have hread : (nameless expr .synthetic).Reads (Expr.function span none params body).tokens
        ((Expr.function span none params body).mapSpans .forget) rest :=
      (reads_next _).cons hrest
    exact hread
  | some name =>
    have hread : (titled expr .synthetic).Reads (Expr.function span (some name) params body).tokens
        ((Expr.function span (some name) params body).mapSpans .forget) rest :=
      (reads_next _).cons ((reads_ident _).cons hrest)
    exact hread

/-- A conditional is read. -/
lemma reads_choice {k : Conditional} (h : k.ReadBy expr) (hpull : pull rest ≤ 6) :
    (primary expr).Reads (Expr.conditional k).tokens ((Expr.conditional k).mapSpans .forget) rest := by
  have hconditional : Reads (fun c => conditional expr c.rest.length c) k.tokens
      (k.mapSpans .forget) rest := h rest _ hpull (by simp)
  have hread : (choice expr).Reads k.tokens (.conditional (k.mapSpans .forget)) rest :=
    hconditional.last (.pure rfl)
  cases k <;> exact hread

end Parser

end Lugha
