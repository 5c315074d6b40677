import Lugha.Proofs.Derivation
import Lugha.Proofs.Rounds

/-!
# Watching the parser

What is shown of the parser is shown of all its parts, one after the other.  This file says what has
to be watched on the way and how it is carried from the parts to the whole; the way itself is made
once, for whatever is watched.

A `Placement` knows something of cursors, and says which spans are in place among tokens and at
which spans faults may be reported.  Its laws say that single tokens and merged spans are in place.
A `Conduct` asks something of each move of a cursor, so that moves can be put together from small
ones. A `Watch` is one of each.

`Watch.Yields` says of what a parser yields at a cursor that the move is one that the watch allows
and that a result stands in a given relation to the tokens that were read and the faults that were
reported for it.  A parser that fails has reported a fault.  There is one lemma for each way in
which parsers are put together.
-/

namespace Lugha

/-- Tokens that neither end a statement nor belong to a block. -/
structure TokenKind.Loose (k : TokenKind) : Prop where
  ne_semicolon : k ≠ .symbol .semicolon
  ne_openBrace : k ≠ .symbol .openBrace
  ne_closeBrace : k ≠ .symbol .closeBrace
  ne_end : k ≠ .endOfFile

namespace TokenKind.Loose

/-- Words are loose. -/
lemma keyword (k : Keyword) : (TokenKind.keyword k).Loose := by
  constructor <;> simp

/-- Names are loose. -/
lemma name (n : String) : (TokenKind.name n).Loose := by
  constructor <;> simp

/-- Numbers are loose. -/
lemma number (x : Float) : (TokenKind.number x).Loose := by
  constructor <;> simp

/-- Texts are loose. -/
lemma text (s : String) : (TokenKind.text s).Loose := by
  constructor <;> simp

/-- All signs are loose but three. -/
lemma symbol {s : Symbol} (h : s ∉ [Symbol.semicolon, .openBrace, .closeBrace]) :
    (TokenKind.symbol s).Loose := by
  constructor <;> simp_all

/-- The text goes on at a loose token. -/
lemma isEnd_eq {k : TokenKind} (h : k.Loose) : k.isEnd = false := by
  rw [← Bool.not_eq_true, isEnd_iff]
  exact h.ne_end

end TokenKind.Loose

/-- What is known of cursors, and which spans are in place among tokens and at which spans faults
may be reported. -/
structure Placement where
  knows : Cursor → Prop
  placed : Span → List Token → Prop
  allowed : Span → Prop
  knows_of_consumes : ∀ {c c' : Cursor} {ts : List Token} {fs : List Fault}, knows c →
    c.Consumes c' ts fs → knows c'
  placed_token : ∀ {c c' : Cursor} {ts : List Token} {fs : List Fault} {t : Token}, knows c →
    c.Consumes c' ts fs → t ∈ ts → placed t.span [t]
  placed_merge : ∀ {c c' : Cursor} {ts us vs : List Token} {fs : List Fault} {s s' : Span},
    knows c → c.Consumes c' ts fs → placed s us → placed s' vs → us <+: ts → vs <:+ ts →
    placed (s.merge s') ts
  allowed_span : ∀ {c : Cursor}, knows c → allowed c.span
  allowed_of_placed : ∀ {s : Span} {ts : List Token}, placed s ts → allowed s

/-- How a cursor may move, with a number of levels left, on the way to a result or to none. -/
structure Conduct where
  goes : Nat → Cursor → Bool → Cursor → Prop
  goes_refl : ∀ {n : Nat} {c : Cursor}, goes n c true c
  goes_trans : ∀ {n : Nat} {c c' c'' : Cursor} {b : Bool}, goes n c true c' → goes n c' b c'' →
    goes n c b c''
  goes_succ : ∀ {n : Nat} {c c' : Cursor} {b : Bool}, goes n c b c' → goes (n + 1) c b c'
  goes_advance : ∀ {n : Nat} {c : Cursor}, c.kind.Loose → goes n c true c.advance
  goes_report : ∀ {n : Nat} {c : Cursor} {e : SyntaxError} {s : Span},
    goes n c false (c.report e s)

/-- What is watched of a run of the parser. -/
structure Watch extends Placement, Conduct

/-- Nothing is asked of spans. -/
def Placement.any : Placement where
  knows _ := True
  placed _ _ := True
  allowed _ := True
  knows_of_consumes _ _ := trivial
  placed_token _ _ _ := trivial
  placed_merge _ _ _ _ _ _ := trivial
  allowed_span _ := trivial
  allowed_of_placed _ := trivial

/-- Nothing is asked of moves. -/
def Conduct.any : Conduct where
  goes _ _ _ _ := True
  goes_refl := trivial
  goes_trans _ _ := trivial
  goes_succ _ := trivial
  goes_advance _ := trivial
  goes_report := trivial

/-- Spans alone are watched. -/
def Placement.watch (P : Placement) : Watch := ⟨P, .any⟩

/-- Moves alone are watched. -/
def Conduct.watch (C : Conduct) : Watch := ⟨.any, C⟩

namespace Watch

variable {W : Watch} {m n : Nat} {c c' c'' : Cursor} {b : Bool} {ts us : List Token}
  {fs gs : List Fault}

/-- The same watch, without asking anything of moves. -/
def free (W : Watch) : Watch := W.toPlacement.watch

/-! ### Moves -/

/-- A move of a cursor that a watch allows. -/
structure Moves (W : Watch) (n : Nat) (c : Cursor) (b : Bool) (c' : Cursor) (ts : List Token)
    (fs : List Fault) : Prop where
  known : W.knows c
  read : c.Consumes c' ts fs
  allowed : ∀ f ∈ fs, W.allowed f.span
  goes : W.goes n c b c'

namespace Moves

/-- Standing still. -/
lemma refl (hc : W.knows c) : W.Moves n c true c [] [] :=
  ⟨hc, .refl c, List.forall_mem_nil _, W.goes_refl⟩

/-- One move after another. -/
lemma trans (h : W.Moves n c true c' ts fs) (h' : W.Moves n c' b c'' us gs) :
    W.Moves n c b c'' (ts ++ us) (fs ++ gs) :=
  ⟨h.known, h.read.trans h'.read, List.forall_mem_append.2 ⟨h.allowed, h'.allowed⟩,
    W.goes_trans h.goes h'.goes⟩

/-- Moving past the next token. -/
lemma advance (hc : W.knows c) (hend : c.atEnd = false) (hgoes : W.goes n c true c.advance) :
    W.Moves n c true c.advance [c.peek] [] :=
  ⟨hc, .advance hend, List.forall_mem_nil _, hgoes⟩

/-- Reporting a fault and giving up. -/
lemma report {s : Span} (hc : W.knows c) (hs : W.allowed s) (e : SyntaxError) :
    W.Moves n c false (c.report e s) [] [⟨e, s⟩] :=
  ⟨hc, .report c e s, List.forall_mem_singleton.2 hs, W.goes_report⟩

/-- What is known after a move. -/
lemma known_after (h : W.Moves n c b c' ts fs) : W.knows c' := W.knows_of_consumes h.known h.read

/-- One level more. -/
lemma succ (h : W.Moves n c b c' ts fs) : W.Moves (n + 1) c b c' ts fs :=
  ⟨h.known, h.read, h.allowed, W.goes_succ h.goes⟩

/-- A token that was read is in place. -/
lemma placed_token {t : Token} (h : W.Moves n c b c' ts fs) (ht : t ∈ ts) : W.placed t.span [t] :=
  W.placed_token h.known h.read ht

/-- A fault may be reported at a token that was read. -/
lemma allowed_token {t : Token} (h : W.Moves n c b c' ts fs) (ht : t ∈ ts) : W.allowed t.span :=
  W.allowed_of_placed (h.placed_token ht)

/-- The span of the first and the span of the last tokens give one of all that were read. -/
lemma placed_merge {vs : List Token} {s s' : Span} (h : W.Moves n c b c' ts fs)
    (hs : W.placed s us) (hs' : W.placed s' vs) (hfirst : us <+: ts) (hlast : vs <:+ ts) :
    W.placed (s.merge s') ts :=
  W.placed_merge h.known h.read hs hs' hfirst hlast

/-- The span that is remembered is that of the last token: with the span of the first token it gives
one of all that were read. -/
lemma placed_previous {t : Token} (h : W.Moves n c b c' (t :: ts) fs) :
    W.placed (t.span.merge c'.previous) (t :: ts) := by
  obtain ⟨init, u, hlast⟩ := (List.eq_nil_or_concat' (t :: ts)).resolve_left (List.cons_ne_nil t ts)
  have hprevious := h.read.previous
  rw [hlast, List.foldl_append, List.foldl_cons, List.foldl_nil] at hprevious
  rw [hprevious]
  refine h.placed_merge (h.placed_token List.mem_cons_self) (h.placed_token (t := u) ?_)
    (List.prefix_append [t] ts) ?_
  · simp [hlast]
  · rw [hlast]
    exact List.suffix_append init [u]

end Moves

/-! ### What a parser yields -/

variable {α β : Type} {Q : α → List Token → List Fault → Prop}
  {R : β → List Token → List Fault → Prop} {x : Option α × Cursor}

/-- What comes of a parser at a cursor: a result that stands in a relation to the tokens that were
read and the faults that were reported, or none and a fault. -/
inductive Outcome (W : Watch) (n : Nat) (c : Cursor) (Q : α → List Token → List Fault → Prop) :
    Option α × Cursor → Prop
  | done {a : α} {c' : Cursor} {ts : List Token} {fs : List Fault}
      (hmove : W.Moves n c true c' ts fs) (h : Q a ts fs) : Outcome W n c Q (some a, c')
  | failed {c' : Cursor} {ts : List Token} {fs : List Fault}
      (hmove : W.Moves n c false c' ts fs) (hfs : fs ≠ []) : Outcome W n c Q (none, c')

/-- What a parser yields at a cursor, if what has to be known of the cursor is known. -/
def Yields (W : Watch) (n : Nat) (c : Cursor) (Q : α → List Token → List Fault → Prop)
    (x : Option α × Cursor) : Prop :=
  W.knows c → W.Outcome n c Q x

/-- What a parser of expressions yields everywhere. -/
def YieldsExpr (W : Watch) (m n : Nat) (expr : Parser Expr) : Prop :=
  ∀ c, W.Yields m c (Expr.Derived W.placed n) (expr c)

/-- What a parser of operands yields everywhere, if they hold together to a degree. -/
def YieldsOperand (W : Watch) (m n k : Nat) (operand : Parser Expr) : Prop :=
  ∀ c, W.Yields m c (Expr.DerivedAt W.placed k n) (operand c)

/-- A token of a certain kind may be read. -/
def Admits (W : Watch) (k : TokenKind) : Prop :=
  ∀ {n : Nat} {c : Cursor}, c.kind = k → W.goes n c true c.advance

/-- Loose tokens may be read. -/
lemma admits_of_loose {k : TokenKind} (h : k.Loose) : W.Admits k := by
  rintro n c rfl
  exact W.goes_advance h

/-- The move of an outcome. -/
lemma Outcome.goes (h : W.Outcome n c Q x) : W.goes n c x.1.isSome x.2 := by
  cases h with
  | done hmove _ => exact hmove.goes
  | failed hmove _ => exact hmove.goes

/-- Whatever comes of a parser, it goes on. -/
lemma Outcome.onward (h : W.Outcome n c Q x) : c.Onward x.2 := by
  cases h with
  | done hmove _ => exact hmove.read.onward
  | failed hmove _ => exact hmove.read.onward

/-- A result that has a token leaves fewer tokens. -/
lemma Outcome.length_lt {a : α} (h : W.Outcome n c Q (some a, c'))
    (hQ : ∀ {ts fs}, Q a ts fs → ts ≠ []) : c'.rest.length < c.rest.length := by
  cases h with
  | done hmove hresult =>
    have hlength := hmove.read.length_eq
    have hpos := List.length_pos_iff.2 (hQ hresult)
    omega

/-- A watch that asks something else of the same move. -/
lemma Outcome.of_free (h : W.free.Outcome m c Q x) (hgoes : W.goes n c x.1.isSome x.2) :
    W.Outcome n c Q x := by
  cases h with
  | done hmove h => exact .done ⟨hmove.known, hmove.read, hmove.allowed, hgoes⟩ h
  | failed hmove hfs => exact .failed ⟨hmove.known, hmove.read, hmove.allowed, hgoes⟩ hfs

/-- What is yielded after a move. -/
lemma Outcome.after (hmove : W.Moves n c true c' ts fs)
    (h : W.Yields n c' (fun a us gs => Q a (ts ++ us) (fs ++ gs)) x) : W.Outcome n c Q x := by
  cases h hmove.known_after with
  | done hmove' hresult => exact .done (hmove.trans hmove') hresult
  | failed hmove' hfs => exact .failed (hmove.trans hmove') (by simp [hfs])

namespace Yields

/-- One level more. -/
lemma succ (h : W.Yields n c Q x) : W.Yields (n + 1) c Q x := by
  intro hc
  cases h hc with
  | done hmove hresult => exact .done hmove.succ hresult
  | failed hmove hfs => exact .failed hmove.succ hfs

/-- Asking nothing of moves. -/
lemma free (h : W.Yields n c Q x) : W.free.Yields m c Q x := by
  intro hc
  cases h hc with
  | done hmove hresult =>
    exact .done ⟨hmove.known, hmove.read, hmove.allowed, trivial⟩ hresult
  | failed hmove hfs => exact .failed ⟨hmove.known, hmove.read, hmove.allowed, trivial⟩ hfs

/-- A weaker relation. -/
lemma imp {P : α → List Token → List Fault → Prop} (h : W.Yields n c P x)
    (hPQ : ∀ {a ts fs}, P a ts fs → Q a ts fs) : W.Yields n c Q x := by
  intro hc
  cases h hc with
  | done hmove hresult => exact .done hmove (hPQ hresult)
  | failed hmove hfs => exact .failed hmove hfs

/-! ### Combining parsers -/

/-- A result without moving. -/
lemma pure {a : α} (h : Q a [] []) : W.Yields n c Q (some a, c) := fun hc => .done (.refl hc) h

/-- One parser after another.  The second one may use the move and the relation of the first. -/
lemma bind {p : Parser β} {f : β → Parser α} (hp : W.Yields n c R (p c))
    (hf : ∀ b c' ts fs, W.Moves n c true c' ts fs → R b ts fs →
      W.Yields n c' (fun a us gs => Q a (ts ++ us) (fs ++ gs)) (f b c')) :
    W.Yields n c Q ((p >>= f) c) := by
  intro hc
  have hfirst := hp hc
  change W.Outcome n c Q (p.andThen f c)
  unfold Parser.andThen
  generalize p c = y at hfirst
  cases hfirst with
  | done hmove h => exact .after hmove (hf _ _ _ _ hmove h)
  | failed hmove hfs => exact .failed hmove hfs

/-- A parser after which nothing is read any more. -/
lemma last {p : Parser β} {f : β → Parser α} {g : β → Cursor → α} (hp : W.Yields n c R (p c))
    (hf : ∀ b c', f b c' = (some (g b c'), c'))
    (hQ : ∀ b c' ts fs, W.Moves n c true c' ts fs → R b ts fs → Q (g b c') ts fs) :
    W.Yields n c Q ((p >>= f) c) := by
  intro hc
  have hfirst := hp hc
  change W.Outcome n c Q (p.andThen f c)
  unfold Parser.andThen
  generalize p c = y at hfirst
  cases hfirst with
  | @done b c' ts fs hmove h =>
    dsimp only
    rw [hf]
    exact .done hmove (hQ b c' ts fs hmove h)
  | failed hmove hfs => exact .failed hmove hfs

/-- Moving past the next token. -/
lemma advance {k : TokenKind} (hkind : c.kind = k) (hend : k.isEnd = false) (hk : W.Admits k)
    (h : W.Moves n c true c.advance [c.peek] [] →
      W.Yields n c.advance (fun a us gs => Q a (c.peek :: us) gs) x) : W.Yields n c Q x := by
  intro hc
  have hmove : W.Moves n c true c.advance [c.peek] [] :=
    .advance hc ((congrArg TokenKind.isEnd hkind).trans hend) (hk hkind)
  exact .after hmove (h hmove)

/-- A token that is read alone. -/
lemma token {k : TokenKind} {a : α} (hkind : c.kind = k) (hk : k.Loose)
    (h : W.placed c.span [c.peek] → Q a [c.peek] []) : W.Yields n c Q (some a, c.advance) :=
  advance hkind hk.isEnd_eq (admits_of_loose hk) fun hmove =>
    .pure (h (hmove.placed_token (List.mem_singleton_self _)))

/-- Reading the next token and going on. -/
lemma next {k : TokenKind} {f : Token → Parser α} (hkind : c.kind = k) (hk : k.Loose)
    (hf : W.Moves n c true c.advance [c.peek] [] →
      W.Yields n c.advance (fun a us gs => Q a (c.peek :: us) gs) (f c.peek c.advance)) :
    W.Yields n c Q ((Parser.next >>= f) c) :=
  advance hkind hk.isEnd_eq (admits_of_loose hk) hf

/-- Looking at the cursor and going on. -/
lemma look {γ : Type} {g : Cursor → γ} {f : γ → Parser α} (hf : W.Yields n c Q (f (g c) c)) :
    W.Yields n c Q ((Parser.look g >>= f) c) :=
  hf

/-- A reported fault in place of a result. -/
lemma failAt {s : Span} (e : SyntaxError) (hs : W.knows c → W.allowed s) :
    W.Yields n c Q (Parser.failAt e s c) :=
  fun hc => .failed (.report hc (hs hc) e) (List.cons_ne_nil _ _)

/-- A reported fault about the next token. -/
lemma failHere (e : TokenKind → SyntaxError) : W.Yields n c Q (Parser.failHere e c) :=
  fun hc => .failed (.report hc (W.allowed_span hc) _) (List.cons_ne_nil _ _)

/-- Reporting a fault and going on. -/
lemma warn {s : Span} {p : Parser α} (e : SyntaxError) (hs : W.allowed s)
    (hgoes : W.goes n c true (c.report e s))
    (hp : W.Yields n (c.report e s) (fun a us gs => Q a us (⟨e, s⟩ :: gs)) (p (c.report e s))) :
    W.Yields n c Q ((Parser.warn e s >>= fun _ => p) c) := by
  intro hc
  have hmove : W.Moves n c true (c.report e s) [] [⟨e, s⟩] :=
    ⟨hc, .report c e s, List.forall_mem_singleton.2 hs, hgoes⟩
  exact .after hmove hp

end Yields

end Watch

/-! ### Single tokens -/

/-- One token of a kind was read, and nothing was reported. -/
def Token.OfKind (k : TokenKind) (t : Token) (ts : List Token) (fs : List Fault) : Prop :=
  t.kind = k ∧ ts = [t] ∧ fs = []

namespace Parser

variable {W : Watch} {n : Nat} {c : Cursor}

/-- A sign may stand here. -/
lemma yields_eat {s : Symbol} (hs : W.Admits (.symbol s)) :
    W.Yields n c (fun b ts fs => fs = [] ∧
      if b then ∃ t, t.kind = .symbol s ∧ ts = [t] else ts = []) (eat s c) := by
  unfold eat
  split
  · next h =>
    have hkind := Cursor.atSymbol_iff.1 h
    exact .advance hkind rfl hs fun _ => .pure ⟨rfl, c.peek, hkind, rfl⟩
  · exact .pure ⟨rfl, rfl⟩

/-- A sign has to stand here. -/
lemma yields_expect {s : Symbol} (hs : W.Admits (.symbol s)) :
    W.Yields n c (Token.OfKind (.symbol s)) (expect s c) := by
  unfold expect
  split
  · next h =>
    have hkind := Cursor.atSymbol_iff.1 h
    exact .advance hkind rfl hs fun _ => .pure ⟨hkind, rfl, rfl⟩
  · exact .failHere _

/-- A bracket has to be closed here. -/
lemma yields_close {s : Symbol} {opened : Span} (hs : W.Admits (.symbol s))
    (hopened : W.allowed opened) : W.Yields n c (Token.OfKind (.symbol s)) (close s opened c) := by
  unfold close
  split
  · exact .failAt _ fun _ => hopened
  · exact yields_expect hs

/-- A name has to stand here. -/
lemma yields_ident : W.Yields n c (fun name ts fs => name.Located ts ∧ fs = []) (ident c) := by
  unfold ident
  split
  · next h => exact .token h (.name _) fun _ => ⟨⟨c.peek, rfl, h, rfl⟩, rfl⟩
  · exact .failHere _

end Parser

end Lugha
