import Lugha.Proofs.Walk
import Mathlib.Data.Finset.Card

/-!
# How many errors the parser reports

Once as many errors were reported as an error list keeps, the parser reads no further statements.
Some errors are reported after that all the same.  A parameter that is given twice is reported
wherever it stands, and reading goes on.  Every block that is still being read has to be closed, and
one that cannot be closed is reported.

So there are three parts.  The first is the number of errors that a list keeps.  The second is the
number of blocks that can be read one inside another.  No more of them are read at once than braces
are open at once among the tokens, and no more than expressions may be nested.  The third is the
number of parameters that stand in a list of parameters for the second time.

`Parser.Pays` says that a move of the parser stays within this budget, with what is left of it where
the parser begins.  A parser that fails has reported one error more than one that succeeds, and this
error is the last one before a further statement would be read.  That moves are paid for is asked of
all parsers on the way; what a block and the parameters of a function cost has to be counted here.
-/

namespace Lugha

/-! ### Braces -/

/-- Whether a token is a closing brace. -/
def TokenKind.isCloseBrace : TokenKind → Bool
  | symbol .closeBrace => true
  | _ => false

/-- Nothing else is a closing brace. -/
lemma TokenKind.isCloseBrace_of_ne {k : TokenKind} (h : k ≠ symbol .closeBrace) :
    k.isCloseBrace = false := by
  unfold isCloseBrace
  split
  · exact absurd rfl h
  · rfl

/-- How many braces are open after a token, if some are open before it. A closing brace closes
nothing if none is open. -/
def TokenKind.bracesAfter (k : TokenKind) (before : Nat) : Nat :=
  match k with
  | symbol .openBrace => before + 1
  | symbol .closeBrace => before - 1
  | _ => before

/-- The most braces that are open at once among tokens, if some are open before them. -/
def mostBraces (before : Nat) : List TokenKind → Nat
  | [] => before
  | k :: ks => max before (mostBraces (k.bracesAfter before) ks)

/-- The braces that are open before the tokens count. -/
lemma le_mostBraces (before : Nat) (ks : List TokenKind) : before ≤ mostBraces before ks := by
  cases ks with
  | nil => exact Nat.le_refl _
  | cons k ks => exact Nat.le_max_left _ _

/-- A token closes one brace at most. -/
lemma TokenKind.pred_le_bracesAfter (k : TokenKind) (before : Nat) :
    before - 1 ≤ k.bracesAfter before := by
  unfold bracesAfter
  split <;> omega

/-- Only closing braces close braces. -/
lemma TokenKind.le_bracesAfter {k : TokenKind} (h : k.isCloseBrace = false) (before : Nat) :
    before ≤ k.bracesAfter before := by
  unfold bracesAfter
  split
  · exact Nat.le_succ _
  · cases h
  · exact Nat.le_refl _

/-! ### Parameters -/

/-- How many of some names stand in the list for the second time, or yet another one. -/
def repeats (names : List String) : Nat := names.length - names.toFinset.card

/-- The names at the beginning of some tokens, with commas between them; what comes next is either a
name or a comma. -/
def leadingNames (name : Bool) : List TokenKind → List String
  | [] => []
  | k :: ks =>
    match name, k with
    | true, .name n => n :: leadingNames false ks
    | false, .symbol .comma => leadingNames true ks
    | _, _ => []

/-- The names after an opening parenthesis. -/
def listedNames : List TokenKind → List String
  | .symbol .openParen :: ks => leadingNames true ks
  | _ => []

/-- The parameters of a function that begins with some tokens. -/
def parameterNames : List TokenKind → List String
  | .keyword .unda :: ks => listedNames ks
  | .keyword .kazi :: .name _ :: ks => listedNames ks
  | _ => []

/-- How many parameters of functions stand in their lists for the second time, or yet another
one. -/
def repeatedParameters : List TokenKind → Nat
  | [] => 0
  | k :: ks => repeats (parameterNames (k :: ks)) + repeatedParameters ks

/-- A name after others is a second one if it is among them. -/
lemma repeats_concat (names : List String) (n : String) :
    repeats (names ++ [n]) = repeats names + if n ∈ names then 1 else 0 := by
  have hcard := names.toFinset_card_le
  have hinsert : (names ++ [n]).toFinset = insert n names.toFinset := by
    ext m
    simp
  unfold repeats
  rw [hinsert, Finset.card_insert_eq_ite, List.length_append, List.length_singleton]
  simp only [List.mem_toFinset]
  split <;> omega

/-- Further names take nothing away. -/
lemma repeats_le_append (names more : List String) : repeats names ≤ repeats (names ++ more) := by
  have hunion := Finset.card_union_le names.toFinset more.toFinset
  have hmore := more.toFinset_card_le
  unfold repeats
  rw [List.toFinset_append, List.length_append]
  omega

/-- How many of some names stand in the list for the second time if others were given before. -/
def repeatsAfter (names more : List String) : Nat := repeats (names ++ more) - repeats names

/-- The first of some names is a second one if it was given before, and then it is itself given
before the others. -/
lemma repeatsAfter_cons (names : List String) (n : String) (more : List String) :
    repeatsAfter names (n :: more) =
      (if n ∈ names then 1 else 0) + repeatsAfter (names ++ [n]) more := by
  have hconcat := repeats_concat names n
  have hle := repeats_le_append (names ++ [n]) more
  unfold repeatsAfter
  rw [List.append_cons]
  omega

/-- Fewer tokens have fewer parameters. -/
lemma repeatedParameters_le_of_suffix {ks ls : List TokenKind} (h : ks <:+ ls) :
    repeatedParameters ks ≤ repeatedParameters ls := by
  obtain ⟨front, rfl⟩ := h
  induction front with
  | nil => exact Nat.le_refl _
  | cons k front ih => exact ih.trans (Nat.le_add_left _ _)

/-! ### Cursors -/

namespace Cursor

/-- A number of blocks is being read at a cursor, each with a brace of its own that is open, and no
more braces than a given number are open anywhere in what follows. -/
def Room (most blocks : Nat) (c : Cursor) : Prop :=
  ∃ before, blocks ≤ before ∧ mostBraces before c.kinds ≤ most

/-- The tokens that are left when the next one was read. -/
lemma kinds_advance (c : Cursor) : c.advance.kinds = c.kinds.tail := by
  rcases c with ⟨_ | ⟨t, rest⟩, previous, faults⟩ <;> rfl

/-- The next token is the first of those that are left. -/
lemma kinds_eq_cons {c : Cursor} {k : TokenKind} (h : c.kind = k) (hend : k.isEnd = false) :
    c.kinds = k :: c.advance.kinds := by
  rcases c with ⟨_ | ⟨t, rest⟩, previous, faults⟩
  · subst h
    cases hend
  · subst h
    rfl

namespace Room

variable {most blocks : Nat} {c : Cursor}

/-- A block less. -/
lemma mono {fewer : Nat} (h : c.Room most blocks) (hle : fewer ≤ blocks) : c.Room most fewer :=
  h.imp fun _ hbefore => ⟨hle.trans hbefore.1, hbefore.2⟩

/-- Moving on leaves a block at most. -/
lemma past (h : c.Room most blocks) : c.advance.Room most (blocks - 1) := by
  rcases c with ⟨_ | ⟨t, rest⟩, previous, faults⟩
  · exact h.mono (Nat.sub_le _ _)
  · obtain ⟨before, hblocks, hmost⟩ := h
    refine ⟨t.kind.bracesAfter before, ?_, (Nat.le_max_right _ _).trans hmost⟩
    exact (Nat.sub_le_sub_right hblocks 1).trans (t.kind.pred_le_bracesAfter before)

/-- Moving on leaves no block, but at a closing brace. -/
lemma advance (h : c.Room most blocks) (hkind : c.kind.isCloseBrace = false) :
    c.advance.Room most blocks := by
  rcases c with ⟨_ | ⟨t, rest⟩, previous, faults⟩
  · exact h
  · obtain ⟨before, hblocks, hmost⟩ := h
    exact ⟨t.kind.bracesAfter before, hblocks.trans (TokenKind.le_bracesAfter hkind before),
      (Nat.le_max_right _ _).trans hmost⟩

/-- An opening brace begins a block. -/
lemma opened (h : c.Room most blocks) (hkind : c.kind = .symbol .openBrace) :
    blocks < most ∧ c.advance.Room most (blocks + 1) := by
  obtain ⟨before, hblocks, hmost⟩ := h
  rw [kinds_eq_cons hkind rfl] at hmost
  have hinner : mostBraces (before + 1) c.advance.kinds ≤ most :=
    (Nat.le_max_right _ _).trans hmost
  have hlt : before < most := (le_mostBraces _ _).trans hinner
  exact ⟨hblocks.trans_lt hlt, before + 1, Nat.succ_le_succ hblocks, hinner⟩

/-- Skipping the rest of a statement leaves no block. -/
lemma resume {faults : ErrorList Fault} (moved : Bool) {previous : Span} {ts : List Token}
    (h : (⟨ts, previous, faults⟩ : Cursor).Room most blocks) :
    (Cursor.resume faults moved previous ts).Room most blocks := by
  induction ts generalizing moved previous with
  | nil => exact h
  | cons t rest ih =>
    unfold Cursor.resume
    split
    · exact h
    · next hkind => exact h.advance (congrArg TokenKind.isCloseBrace hkind)
    · exact h
    · next hbrace =>
      split
      · exact h
      · have hkind : t.kind.isCloseBrace = false := TokenKind.isCloseBrace_of_ne hbrace
        exact ih true (h.advance hkind)

/-- Skipping the rest of a statement. -/
lemma synchronize (h : c.Room most blocks) : c.synchronize.Room most blocks :=
  resume false h

end Room

/-- Moving on leaves fewer parameters. -/
lemma repeatedParameters_advance (c : Cursor) :
    repeatedParameters c.advance.kinds ≤ repeatedParameters c.kinds := by
  rw [kinds_advance]
  exact repeatedParameters_le_of_suffix (List.tail_suffix _)

/-- Skipping the rest of a statement leaves fewer parameters. -/
lemma repeatedParameters_synchronize (c : Cursor) :
    repeatedParameters c.synchronize.kinds ≤ repeatedParameters c.kinds := by
  obtain ⟨us, hread, -⟩ := c.consumes_synchronize
  exact repeatedParameters_le_of_suffix ⟨_, hread.passes.kinds.symm⟩

end Cursor

/-! ### What moves cost -/

namespace Parser

variable {α β : Type} {most levels blocks credit : Nat} {c c' c'' : Cursor} {b : Bool}

/-- A move to a result or to none, from a cursor at which some blocks are being read, is paid for.
There may be as many errors as a list keeps and one more for each block that can still be opened
inside another; a parser that fails has reported an error on top of that, if the list was full
already.  Each parameter that was left behind may have been reported, and so may others, up to a
credit. -/
structure Pays (most levels blocks credit : Nat) (c : Cursor) (b : Bool) (c' : Cursor) : Prop where
  room : c'.Room most blocks
  left : repeatedParameters c'.kinds ≤ repeatedParameters c.kinds
  cost : c'.faults.total + repeatedParameters c'.kinds + b.toNat ≤
    max (c.faults.total + 1) (ErrorList.capacity + min levels (most - blocks)) +
      repeatedParameters c.kinds + credit

namespace Pays

/-- More levels and more credit. -/
lemma mono {levels' credit' : Nat} (h : Pays most levels blocks credit c b c')
    (hlevels : levels ≤ levels') (hcredit : credit ≤ credit') :
    Pays most levels' blocks credit' c b c' := by
  refine ⟨h.room, h.left, h.cost.trans ?_⟩
  omega

/-- What is paid whether the parser succeeds or fails. -/
lemma cost_le (h : Pays most levels blocks 0 c b c') :
    c'.faults.total + repeatedParameters c'.kinds ≤
      max (c.faults.total + 1) (ErrorList.capacity + min levels (most - blocks)) +
        repeatedParameters c.kinds :=
  (Nat.le_add_right _ _).trans h.cost

/-- Standing still. -/
lemma refl (hc : c.Room most blocks) : Pays most levels blocks credit c true c := by
  refine ⟨hc, Nat.le_refl _, ?_⟩
  change c.faults.total + repeatedParameters c.kinds + 1 ≤ _
  omega

/-- A report. -/
lemma fault (hc : c.Room most blocks) (e : SyntaxError) (span : Span) :
    Pays most levels blocks credit c false (c.report e span) := by
  refine ⟨hc, Nat.le_refl _, ?_⟩
  change c.faults.total + 1 + repeatedParameters c.kinds + 0 ≤ _
  omega

/-- What is left behind without a report adds to the credit. -/
lemma after {spare : Nat} (hfaults : c'.faults = c.faults)
    (hleft : repeatedParameters c'.kinds + spare ≤ repeatedParameters c.kinds)
    (h : Pays most levels blocks (spare + credit) c' b c'') :
    Pays most levels blocks credit c b c'' := by
  have hcost := h.cost
  rw [hfaults] at hcost
  exact ⟨h.room, h.left.trans (by omega), by omega⟩

/-- Moving on. -/
lemma advance (h : Pays most levels blocks credit c.advance b c') :
    Pays most levels blocks credit c b c' := by
  have hleft : repeatedParameters c.advance.kinds + 0 ≤ repeatedParameters c.kinds :=
    c.repeatedParameters_advance
  exact after c.faults_advance hleft (h.mono (Nat.le_refl _) (Nat.le_add_left _ _))

/-- Moving past a token that closes no block. -/
lemma token (hc : c.Room most blocks) (hkind : c.kind.isCloseBrace = false) :
    Pays most levels blocks 0 c true c.advance :=
  advance (refl (hc.advance hkind))

/-- A report that is paid for by credit. -/
lemma reported {e : SyntaxError} {span : Span}
    (h : Pays most levels blocks credit (c.report e span) b c') :
    Pays most levels blocks (credit + 1) c b c' := by
  have hcost := h.cost
  change _ ≤ max (c.faults.total + 1 + 1) _ + repeatedParameters c.kinds + credit at hcost
  exact ⟨h.room, h.left, by omega⟩

/-- One move after another. -/
lemma trans (h : Pays most levels blocks credit c true c')
    (h' : c'.Room most blocks → Pays most levels blocks 0 c' b c'') :
    Pays most levels blocks credit c b c'' := by
  have hlater := h' h.room
  have hcost : c'.faults.total + repeatedParameters c'.kinds + 1 ≤ _ := h.cost
  have hcost' := hlater.cost
  have hleft := h.left
  exact ⟨hlater.room, hlater.left.trans hleft, by omega⟩

end Pays

/-- What a parser yields is paid for. -/
abbrev Paid (most levels blocks credit : Nat) (c : Cursor) (x : Option α × Cursor) : Prop :=
  Pays most levels blocks credit c x.1.isSome x.2

/-- One parser and then a second one, which begin after a cursor. -/
lemma Paid.bind {p : Parser α} {f : α → Parser β} {d : Cursor}
    (hp : Paid most levels blocks credit c (p d))
    (hf : ∀ a c', c'.Room most blocks → Paid most levels blocks 0 c' (f a c')) :
    Paid most levels blocks credit c ((p >>= f) d) := by
  change Paid most levels blocks credit c (p.andThen f d)
  unfold Parser.andThen
  rcases hpd : p d with ⟨_ | a, c'⟩ <;> rw [hpd] at hp
  · exact hp
  · exact Pays.trans hp (hf a c')

end Parser

/-- Moves are paid for, without credit. -/
def Conduct.thrifty (most : Nat) : Conduct where
  goes levels c b c' := ∀ blocks, c.Room most blocks → Parser.Pays most levels blocks 0 c b c'
  goes_refl _ hc := .refl hc
  goes_trans h h' blocks hc := (h blocks hc).trans (h' blocks)
  goes_succ h blocks hc := (h blocks hc).mono (Nat.le_succ _) (Nat.le_refl _)
  goes_advance hloose _ hc := .token hc (TokenKind.isCloseBrace_of_ne hloose.ne_closeBrace)
  goes_report _ hc := .fault hc _ _

/-- A semicolon closes no block. -/
lemma Conduct.thrifty_semicolon (most : Nat) :
    (Conduct.thrifty most).watch.Admits (.symbol .semicolon) :=
  fun hkind _ hc => .token hc (congrArg TokenKind.isCloseBrace hkind)

/-! ### Blocks -/

namespace Parser

variable {most levels blocks : Nat} {c : Cursor} {expr : Parser Expr}

/-- What a loop over statements comes to is paid for: there may be as many errors as a list keeps,
and one more for each block that can be opened. -/
structure LoopPays (most levels blocks : Nat) (c c' : Cursor) : Prop where
  room : c'.Room most blocks
  left : repeatedParameters c'.kinds ≤ repeatedParameters c.kinds
  cost : c'.faults.total + repeatedParameters c'.kinds ≤
    max c.faults.total (ErrorList.capacity + min levels (most - blocks)) +
      repeatedParameters c.kinds

namespace LoopPays

/-- Nothing more is read. -/
lemma refl (hc : c.Room most blocks) : LoopPays most levels blocks c c :=
  ⟨hc, Nat.le_refl _, by omega⟩

/-- Further statements are read only while the list is not full, so a round costs no more than the
list keeps and the blocks that it opens. -/
lemma round {c₁ c₂ : Cursor} (hfull : c.faults.isFull = false) (hroom : c₁.Room most blocks)
    (hleft : repeatedParameters c₁.kinds ≤ repeatedParameters c.kinds)
    (hcost : c₁.faults.total + repeatedParameters c₁.kinds ≤
      max (c.faults.total + 1) (ErrorList.capacity + min levels (most - blocks)) +
        repeatedParameters c.kinds)
    (hrest : c₁.Room most blocks → LoopPays most levels blocks c₁ c₂) :
    LoopPays most levels blocks c c₂ := by
  have hlt : c.faults.total < ErrorList.capacity := Nat.not_le.1 (of_decide_eq_false hfull)
  have hlater := hrest hroom
  have hcost' := hlater.cost
  exact ⟨hlater.room, hlater.left.trans hleft, by omega⟩

section Statements

variable (hexpr : (Conduct.thrifty most).watch.YieldsExpr levels levels expr)

include hexpr

/-- A statement, or what is skipped of it, and further ones. -/
lemma oneStatement {rest : Parser (List Stmt)}
    (hrest : ∀ c, c.Room most blocks → LoopPays most levels blocks c (rest c).2)
    (hc : c.Room most blocks) (hfull : c.faults.isFull = false) :
    LoopPays most levels blocks c (oneStatement expr rest c).2 := by
  have hfirst : Paid most levels blocks 0 c (statement expr c) :=
    (yields_statement hexpr (Conduct.thrifty_semicolon most) trivial).goes blocks hc
  unfold Parser.oneStatement
  generalize statement expr c = x at hfirst
  rcases x with ⟨_ | s, c₁⟩
  · have hskipped := c₁.repeatedParameters_synchronize
    refine .round hfull hfirst.room.synchronize (hskipped.trans hfirst.left) ?_ (hrest _)
    refine (Nat.add_le_add_left hskipped _).trans ?_
    rw [Cursor.faults_synchronize]
    exact hfirst.cost_le
  · have hthen : ((rest >>= fun ss => pure (s :: ss) : Parser (List Stmt)) c₁).2 = (rest c₁).2 := by
      change (rest.andThen _ c₁).2 = _
      unfold Parser.andThen
      rcases rest c₁ with ⟨_ | ss, c₂⟩ <;> rfl
    dsimp only
    rw [hthen]
    exact .round hfull hfirst.room hfirst.left hfirst.cost_le (hrest _)

/-- The statements of a block. -/
lemma blockStatements (rounds : Nat) {c : Cursor} (hc : c.Room most blocks) :
    LoopPays most levels blocks c (blockStatements expr rounds c).2 := by
  induction rounds generalizing c with
  | zero => exact refl hc
  | succ rounds ih =>
    rw [blockStatements_succ]
    split
    · exact refl hc
    · next hgoes =>
      simp only [Bool.or_eq_true, not_or, Bool.not_eq_true] at hgoes
      exact oneStatement hexpr (fun _ => ih) hc hgoes.2

/-- The statements of a program: a brace that closes nothing is reported and passed over. -/
lemma programStatements (rounds : Nat) {c : Cursor} (hc : c.Room most 0) :
    LoopPays most levels 0 c (programStatements expr rounds c).2 := by
  induction rounds generalizing c with
  | zero => exact refl hc
  | succ rounds ih =>
    rw [programStatements_succ]
    split
    · exact refl hc
    · next hgoes =>
      simp only [Bool.or_eq_true, not_or, Bool.not_eq_true] at hgoes
      split
      · let reported := c.report .strayBrace c.span
        have hleft : repeatedParameters reported.advance.kinds ≤ repeatedParameters c.kinds :=
          reported.repeatedParameters_advance
        have htotal : reported.advance.faults.total = c.faults.total + 1 :=
          congrArg ErrorList.total reported.faults_advance
        exact .round hgoes.2 (Cursor.Room.past (c := reported) hc) hleft (by omega) fun h => ih h
      · exact oneStatement hexpr (fun _ => ih) hc hgoes.2

end Statements

end LoopPays

/-- A block that cannot be closed is reported on top of what its statements cost. -/
lemma paid_closeBlock {c₁ c₂ : Cursor} (hlt : blocks < most) (hfaults : c₁.faults = c.faults)
    (hleft : repeatedParameters c₁.kinds ≤ repeatedParameters c.kinds)
    (h : LoopPays most levels (blocks + 1) c₁ c₂) (opened : Span) :
    Paid most (levels + 1) blocks 0 c (close .closeBrace opened c₂) := by
  have hcost := h.cost
  rw [hfaults] at hcost
  have hroom : c₂.Room most blocks := h.room.mono (Nat.le_succ _)
  have hopen (e : SyntaxError) (span : Span) :
      Pays most (levels + 1) blocks 0 c false (c₂.report e span) := by
    refine ⟨hroom, h.left.trans hleft, ?_⟩
    change c₂.faults.total + 1 + repeatedParameters c₂.kinds + 0 ≤ _
    omega
  unfold close
  split
  · exact hopen _ _
  · unfold expect
    split
    · have hpast := c₂.repeatedParameters_advance
      refine ⟨h.room.past, hpast.trans (h.left.trans hleft), ?_⟩
      change c₂.advance.faults.total + repeatedParameters c₂.advance.kinds + 1 ≤ _
      rw [Cursor.faults_advance]
      omega
    · exact hopen _ _

/-- A block: what is left for the blocks inside it is one less. -/
lemma paid_block (hexpr : (Conduct.thrifty most).watch.YieldsExpr levels levels expr)
    (hc : c.Room most blocks) : Paid most (levels + 1) blocks 0 c (block expr c) := by
  change Paid most (levels + 1) blocks 0 c ((expect .openBrace >>= _) c)
  rw [expect_andThen]
  split
  · next hat =>
    obtain ⟨hlt, hinner⟩ := hc.opened (Cursor.atSymbol_iff.1 hat)
    have hloop := LoopPays.blockStatements hexpr c.advance.rest.length hinner
    have hclosed := paid_closeBlock hlt c.faults_advance c.repeatedParameters_advance hloop
      c.peek.span
    exact hclosed.bind fun closed c' hc' => .refl hc'
  · exact .fault hc _ _

/-! ### Functions -/

/-- What follows a parameter. -/
lemma paid_furtherParameters (rounds : Nat) (given : List Ident)
    (hrest : ∀ c : Cursor, c.Room most blocks → Paid most levels blocks
      (repeatsAfter (given.map (·.name)) (leadingNames true c.kinds)) c (parameters rounds given c))
    (hc : c.Room most blocks) :
    Paid most levels blocks (repeatsAfter (given.map (·.name)) (leadingNames false c.kinds)) c
      (furtherParameters rounds given c) := by
  unfold furtherParameters
  rw [eat_andThen]
  split
  · next hat =>
    have hkind := Cursor.atSymbol_iff.1 hat
    have hc₁ : c.advance.Room most blocks := hc.advance (by rw [hkind]; rfl)
    rw [if_pos rfl, look_andThen, Cursor.kinds_eq_cons hkind rfl]
    refine .advance ?_
    split
    · exact .refl hc₁
    · exact hrest _ hc₁
  · exact .refl hc

/-- Parameters: one that was given before is reported, and is paid for by credit. -/
lemma paid_parameters (rounds : Nat) (given : List Ident) {c : Cursor} (hc : c.Room most blocks) :
    Paid most levels blocks (repeatsAfter (given.map (·.name)) (leadingNames true c.kinds)) c
      (parameters rounds given c) := by
  induction rounds generalizing given c with
  | zero => exact .refl hc
  | succ rounds ih =>
    rw [parameters_succ, ident_andThen]
    split
    · next n hkind =>
      have hc₁ : c.advance.Room most blocks := hc.advance (by rw [hkind]; rfl)
      have hrest (d : Cursor) (hd : d.Room most blocks) : Paid most levels blocks
          (repeatsAfter (given.map (·.name) ++ [n]) (leadingNames false d.kinds)) d
          (furtherParameters rounds (given ++ [⟨n, c.span⟩]) d) := by
        have h := paid_furtherParameters rounds (given ++ [⟨n, c.span⟩]) (fun _ => ih _) hd
        rwa [List.map_append] at h
      rw [Cursor.kinds_eq_cons hkind rfl, leadingNames, repeatsAfter_cons]
      refine .advance ?_
      by_cases hgiven : n ∈ given.map (·.name)
      · rw [if_pos hgiven, if_pos ((any_name_iff given n).2 hgiven), Nat.add_comm]
        exact .reported (hrest (c.advance.report _ _) hc₁)
      · rw [if_neg hgiven, if_neg (mt (any_name_iff given n).1 hgiven), Nat.zero_add]
        exact hrest c.advance hc₁
    · exact .fault hc _ _

/-- The parameters up to the closing parenthesis. -/
lemma paid_parameterList (hc : c.Room most blocks) :
    Paid most levels blocks (repeats (leadingNames true c.kinds)) c (parameterList c) := by
  unfold parameterList
  split
  · exact .refl hc
  · exact (paid_parameters _ [] hc).mono (Nat.le_refl _) (Nat.sub_le _ _)

section Functions

variable (hexpr : (Conduct.thrifty most).watch.YieldsExpr levels levels expr)

include hexpr

/-- The parameters and the body of a function. -/
lemma paid_functionRest (name : Option Ident) (start : Span) (hc : c.Room most blocks) :
    Paid most (levels + 1) blocks (repeats (listedNames c.kinds)) c
      (functionRest expr name start c) := by
  have hblock (c : Cursor) : (Conduct.thrifty most).watch.Yields (levels + 1) c
      (Block.Derived (Conduct.thrifty most).watch.placed levels) (block expr c) := fun hc =>
    (yields_block_free (m := levels) hexpr hc).of_free fun _ => paid_block hexpr
  change Paid most (levels + 1) blocks _ c ((expect .openParen >>= fun opened =>
    parameterList >>= _) c)
  rw [expect_andThen]
  split
  · next hat =>
    have hkind := Cursor.atSymbol_iff.1 hat
    have hc₁ : c.advance.Room most blocks := hc.advance (by rw [hkind]; rfl)
    rw [Cursor.kinds_eq_cons hkind rfl, listedNames]
    refine .advance (Paid.bind (paid_parameterList hc₁) fun params c₂ hc₂ => ?_)
    -- what follows the parameters reports nothing that does not stop the parser
    have hrest : (Conduct.thrifty most).watch.Yields (levels + 1) c₂ (fun _ _ _ => True)
        ((close .closeParen c.peek.span >>= fun _ => block expr >>= fun body =>
          (pure (.function (start.merge body.span) name params body) : Parser Expr)) c₂) :=
      .bind (yields_close (Watch.admits_of_loose (.symbol (by decide))) trivial)
        fun _ c₃ _ _ _ _ => .last (hblock c₃) (fun _ _ => rfl) fun _ _ _ _ _ _ => trivial
    exact (hrest trivial).goes blocks hc₂
  · exact .fault hc _ _

/-- A function without a name. -/
lemma paid_nameless (start : Span) (hkind : c.kind = .keyword .unda) (hc : c.Room most blocks) :
    Paid most (levels + 1) blocks 0 c (nameless expr start c) := by
  have hc₁ : c.advance.Room most blocks := hc.advance (by rw [hkind]; rfl)
  refine .after c.faults_advance ?_ (paid_functionRest hexpr none start hc₁)
  rw [Cursor.kinds_eq_cons hkind rfl]
  exact Nat.le_of_eq (Nat.add_comm _ _)

/-- A function with a name. -/
lemma paid_titled (start : Span) (hkind : c.kind = .keyword .kazi) (hc : c.Room most blocks) :
    Paid most (levels + 1) blocks 0 c (titled expr start c) := by
  have hc₁ : c.advance.Room most blocks := hc.advance (by rw [hkind]; rfl)
  rw [titled, next_andThen, ident_andThen]
  split
  · next n hname =>
    have hc₂ : c.advance.advance.Room most blocks := hc₁.advance (by rw [hname]; rfl)
    refine .after ?_ ?_ (paid_functionRest hexpr _ start hc₂)
    · rw [Cursor.faults_advance, Cursor.faults_advance]
    · rw [Cursor.kinds_eq_cons hkind rfl, Cursor.kinds_eq_cons hname rfl]
      exact (Nat.add_comm _ _).trans_le (Nat.add_le_add_left (Nat.le_add_left _ _) _)
  · exact .advance (.fault hc₁ _ _)

end Functions

/-- Blocks and functions are paid for. -/
lemma thrifty_closed (most : Nat) : (Conduct.thrifty most).watch.Closed where
  block hexpr _ _ _ hc := paid_block hexpr hc
  nameless hexpr _ _ hkind _ hc := paid_nameless hexpr _ hkind hc
  titled hexpr _ _ hkind _ hc := paid_titled hexpr _ hkind hc

end Parser

/-! ### Programs -/

/-- The mark of the end opens no brace. -/
lemma mostBraces_append_end (before : Nat) (ks : List TokenKind) :
    mostBraces before (ks ++ [.endOfFile]) = mostBraces before ks := by
  induction ks generalizing before with
  | nil => exact Nat.max_self _
  | cons k ks ih => exact congrArg (max before) (ih _)

/-- The mark of the end is no name. -/
lemma leadingNames_append_end (name : Bool) (ks : List TokenKind) :
    leadingNames name (ks ++ [.endOfFile]) = leadingNames name ks := by
  induction ks generalizing name with
  | nil => cases name <;> rfl
  | cons k ks ih =>
    simp only [List.cons_append, leadingNames, ih]

lemma listedNames_append_end (ks : List TokenKind) :
    listedNames (ks ++ [.endOfFile]) = listedNames ks := by
  rcases ks with _ | ⟨k, ks⟩
  · rfl
  · unfold listedNames
    grind [leadingNames_append_end]

lemma parameterNames_append_end (ks : List TokenKind) :
    parameterNames (ks ++ [.endOfFile]) = parameterNames ks := by
  rcases ks with _ | ⟨k, _ | ⟨l, ks⟩⟩
  · rfl
  · unfold parameterNames
    grind [listedNames_append_end]
  · unfold parameterNames
    grind [listedNames_append_end]

lemma repeatedParameters_append_end (ks : List TokenKind) :
    repeatedParameters (ks ++ [.endOfFile]) = repeatedParameters ks := by
  induction ks with
  | nil => rfl
  | cons k ks ih =>
    exact congrArg₂ (· + ·) (congrArg repeats (parameterNames_append_end (k :: ks))) ih

/-- A mark of the end is added to the tokens, or stands among them. -/
lemma Cursor.kinds_ofTokens_or (tokens : List Token) :
    (ofTokens tokens).kinds = tokens.map (·.kind) ∨
      (ofTokens tokens).kinds = tokens.map (·.kind) ++ [.endOfFile] := by
  unfold ofTokens Cursor.kinds
  cases hlast : tokens.getLast? with
  | none =>
    obtain rfl := List.getLast?_eq_none_iff.1 hlast
    exact .inr rfl
  | some t =>
    dsimp only
    split
    · exact .inl rfl
    · exact .inr List.map_append

/-- The tokens that are read have the braces and the parameters of those that are given. -/
lemma Cursor.measures_ofTokens (tokens : List Token) :
    mostBraces 0 (ofTokens tokens).kinds = mostBraces 0 (tokens.map (·.kind)) ∧
      repeatedParameters (ofTokens tokens).kinds = repeatedParameters (tokens.map (·.kind)) := by
  rcases Cursor.kinds_ofTokens_or tokens with hkinds | hkinds <;> rw [hkinds]
  · exact ⟨rfl, rfl⟩
  · exact ⟨mostBraces_append_end _ _, repeatedParameters_append_end _⟩

/-- A full list, a report for each block that is read at once, and one for each parameter that is
repeated. -/
lemma total_parseTokens_le (tokens : List Token) :
    (parseTokens tokens).2.total ≤ ErrorList.capacity +
      min maxNesting (mostBraces 0 (tokens.map (·.kind))) +
        repeatedParameters (tokens.map (·.kind)) := by
  obtain ⟨hbraces, hrepeats⟩ := Cursor.measures_ofTokens tokens
  have hexpr := Parser.yields_expression
    (Parser.thrifty_closed (mostBraces 0 (tokens.map (·.kind)))) maxNesting
  have hroom : (Cursor.ofTokens tokens).Room (mostBraces 0 (tokens.map (·.kind))) 0 :=
    ⟨0, Nat.le_refl _, Nat.le_of_eq hbraces⟩
  have hpays := Parser.LoopPays.programStatements hexpr (Cursor.ofTokens tokens).rest.length hroom
  have hcost := hpays.cost
  rw [hrepeats] at hcost
  change (parseTokens tokens).2.total + _ ≤ max 0 _ + _ at hcost
  omega

end Lugha
