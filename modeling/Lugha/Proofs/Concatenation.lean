import Lugha.Proofs.Scanning
import Lugha.Proofs.Soundness
import Lugha.Proofs.Uniformity

/-!
# Programs one after the other

Tokens that are read without a fault and end with a semicolon can be followed by any others: the
parser reads the same statements from them and then stands before what follows.

The tokens alone and the tokens with others after them are read abreast.  The two runs could part
at the last token only, where the one sees the mark of the end next and the other does not.  But a
statement is never written with a semicolon at its end, so the last semicolon is read after a
statement and not within it, and whether it is there is seen before it is read.

`Comparison.ReadsThrough` says of the run on the tokens alone that it never comes to such a point:
in each round a statement is read, or skipped, within the tokens that both runs see.
-/

namespace Lugha

/-! ### Statements do not end with a semicolon -/

/-- Tokens of which the last is no semicolon. -/
def Unended (ts : List TokenKind) : Prop :=
  ∃ us k, ts = us ++ [k] ∧ k ≠ .symbol .semicolon

namespace Unended

/-- A last token that is no semicolon. -/
lemma concat (ts : List TokenKind) {k : TokenKind} (h : k ≠ .symbol .semicolon) :
    Unended (ts ++ [k]) :=
  ⟨ts, k, rfl, h⟩

/-- Other tokens before. -/
lemma append (ts : List TokenKind) {us : List TokenKind} (h : Unended us) : Unended (ts ++ us) := by
  obtain ⟨vs, k, rfl, hk⟩ := h
  exact ⟨ts ++ vs, k, (List.append_assoc ..).symm, hk⟩

/-- One more token before. -/
lemma cons (k : TokenKind) {us : List TokenKind} (h : Unended us) : Unended (k :: us) :=
  h.append [k]

end Unended

/-- A block ends with a brace. -/
lemma Block.Spells.unended {b : Block} {ts : List TokenKind} (h : b.Spells ts) : Unended ts := by
  cases h with
  | mk hstmts => exact (Unended.concat _ (by simp)).cons _

/-- A conditional ends with a block. -/
lemma Conditional.Spells.unended : ∀ {k : Conditional} {ts : List TokenKind}, k.Spells ts →
    Unended ts
  | .ifThen .., _, h => by
    cases h with
    | ifThen _ hyes => exact (((hyes.unended.cons _).append _).cons _).cons _
  | .ifElse .., _, h => by
    cases h with
    | ifElse _ _ hno => exact (((((hno.unended.cons _).append _).cons _).append _).cons _).cons _
  | .elseIf _ _ _ next, _, h => by
    cases h with
    | elseIf _ _ hnext =>
      have hlast := Conditional.Spells.unended hnext
      exact (((((hlast.cons _).append _).cons _).append _).cons _).cons _

/-- An expression does not end with a semicolon. -/
lemma Expr.Spells.unended : ∀ {e : Expr} {ts : List TokenKind}, e.Spells ts → Unended ts
  | .number .., _, h | .text .., _, h | .boolean .., _, h | .null .., _, h | .name .., _, h => by
    cases h
    exact .concat [] (by simp)
  | .call .., _, h => by
    cases h
    exact ((Unended.concat _ (by simp)).cons _).append _
  | .binary _ _ _ right, _, h => by
    cases h with
    | binary _ hright => exact ((Expr.Spells.unended hright).cons _).append _
  | .unary _ _ operand, _, h => by
    cases h with
    | unary hoperand => exact (Expr.Spells.unended hoperand).cons _
  | .conditional branches, _, h => by
    cases h with
    | conditional hbranches => exact hbranches.unended
  | .loop .., _, h => by
    cases h with
    | loop _ hbody => exact (((hbody.unended.cons _).append _).cons _).cons _
  | .function .., _, h => by
    cases h with
    | function _ hbody => exact (((hbody.unended.cons _).append _).cons _).append _
  | .paren .., _, h => by
    cases h
    exact (Unended.concat _ (by simp)).cons _

/-- A statement does not end with a semicolon. -/
lemma Stmt.Spells.unended {stmt : Stmt} {ts : List TokenKind} (h : stmt.Spells ts) :
    Unended ts := by
  cases h with
  | bind hvalue => exact ((hvalue.unended.cons _).cons _).cons _
  | assign hvalue => exact (hvalue.unended.cons _).cons _
  | returnValue hvalue => exact hvalue.unended.cons _
  | returnNothing | breakLoop | continueLoop => exact .concat [] (by simp)
  | expr hvalue => exact hvalue.unended

/-! ### Tokens that end with a semicolon -/

/-- Tokens without a mark of the end, of which the last is a semicolon if there are any. -/
structure Closed (ks : List TokenKind) : Prop where
  noEnd : .endOfFile ∉ ks
  last : ∀ k ∈ ks.getLast?, k = .symbol .semicolon

namespace Closed

/-- What ends with a semicolon does so after its beginning is read. -/
lemma of_append {ts ks : List TokenKind} (h : Closed (ts ++ ks)) : Closed ks := by
  refine ⟨fun hmem => h.noEnd (List.mem_append_right ts hmem), fun k hk => h.last k ?_⟩
  rw [List.getLast?_append, Option.mem_def.1 hk]
  rfl

/-- What does not end with a semicolon is not all of it. -/
lemma ne_of_unended {ks : List TokenKind} (h : Closed ks) (hunended : Unended ks) : False := by
  obtain ⟨us, k, rfl, hk⟩ := hunended
  exact hk (h.last k (by simp))

end Closed

/-- After tokens that do not hold the mark of the end, the others before that mark are left. -/
lemma Cursor.Passes.kinds_eq {c c' : Cursor} {ts ks : List TokenKind} (h : c.Passes c' ts)
    (hkinds : c.kinds = ks ++ [.endOfFile]) :
    ∃ us, ks = ts ++ us ∧ c'.kinds = us ++ [.endOfFile] := by
  have heq := h.kinds.symm.trans hkinds
  rcases List.append_eq_append_iff.1 heq with ⟨us, hks, hrest⟩ | ⟨us, hts, hrest⟩
  · exact ⟨us, hks, hrest⟩
  · cases us with
    | nil => exact ⟨[], by simpa using hts.symm, by simpa using hrest.symm⟩
    | cons u us =>
      obtain ⟨rfl, -⟩ := List.cons.inj hrest
      exact absurd (hts ▸ List.mem_append_right ks List.mem_cons_self) h.noEnd

/-- Tokens that end with their mark are read as they are. -/
lemma Cursor.kinds_ofTokens_of_ended {tokens : List Token} {ks : List TokenKind}
    (h : tokens.map (·.kind) = ks ++ [.endOfFile]) :
    (ofTokens tokens).kinds = ks ++ [.endOfFile] := by
  obtain ⟨ts, us, rfl, hts, hus⟩ := List.map_eq_append_iff.1 h
  obtain ⟨t, rfl, ht⟩ := List.map_eq_singleton_iff.1 hus
  simp [kinds, ofTokens, hts, ht, TokenKind.isEnd]

/-- The next token is the first of those that are left. -/
lemma Cursor.kind_of_kinds {c : Cursor} {k : TokenKind} {ks : List TokenKind}
    (h : c.kinds = k :: ks) : c.kind = k := by
  rcases c with ⟨_ | ⟨t, rest⟩, previous, faults⟩
  · cases h
  · exact (List.cons.inj h).1

/-! ### Reading on -/

namespace Comparison

variable {S : Comparison}

/-- No fewer tokens are left than those after the common beginning. -/
lemma Rest.length_le {ts ts' : List Token} (h : S.Rest ts ts') : S.tail.length ≤ ts.length := by
  induction h with
  | tail => exact Nat.le_refl _
  | cons _ _ _ _ ih => exact Nat.le_succ_of_le ih

/-- When the first run has read the common beginning, so has the second. -/
lemma Rest.eq_tail {ts ts' : List Token} (h : S.Rest ts ts') (hlength : ts.length ≤ S.tail.length) :
    ts' = S.tail' := by
  cases h with
  | tail => rfl
  | cons _ _ _ h => exact absurd h.length_le (Nat.not_le.2 hlength)

end Comparison

namespace Parser

open Comparison

variable {expr : Parser Expr} {c c' : Cursor} {ks : List TokenKind}

/-- Stands after the semicolon, if one stands here. -/
def pastSemicolon (c : Cursor) : Cursor := if c.atSymbol .semicolon then c.advance else c

/-- A statement is read up to its semicolon, which is passed over if it is there. -/
lemma statement_eq_of_some {stmt : Stmt} {c₀ : Cursor} (h : unterminated expr c = (some stmt, c₀)) :
    statement expr c = (some stmt, pastSemicolon c₀) := by
  change Parser.andThen (unterminated expr) _ c = _
  unfold Parser.andThen pastSemicolon
  rw [h]
  change (eat .semicolon >>= fun _ => pure stmt) c₀ = _
  rw [eat_andThen]
  split <;> rfl

/-- A statement that is not read up to its semicolon is not read. -/
lemma statement_eq_of_none {c₀ : Cursor} (h : unterminated expr c = (none, c₀)) :
    statement expr c = (none, c₀) := by
  change Parser.andThen (unterminated expr) _ c = _
  unfold Parser.andThen
  rw [h]

/-- A semicolon is passed over without a report. -/
lemma faults_pastSemicolon (c : Cursor) : (pastSemicolon c).faults = c.faults := by
  unfold pastSemicolon
  split
  · exact c.faults_advance
  · rfl

/-- Passing over a semicolon goes on. -/
lemma onward_pastSemicolon (c : Cursor) : c.Onward (pastSemicolon c) := by
  unfold pastSemicolon
  split
  · exact .advance c
  · exact .refl c

/-- A semicolon is passed over by both runs. -/
lemma pastSemicolon_abreast {S : Comparison} {moved : Prop} (h : S.Abreast moved c c')
    (hlost : ¬ S.lost c) : S.Abreast False (pastSemicolon c) (pastSemicolon c') := by
  unfold pastSemicolon
  rw [h.atSymbol_eq hlost]
  split
  · exact (h.advance hlost).mono False.elim
  · exact h.mono False.elim

/-- What is left after a semicolon, if tokens before the mark of the end are left. -/
lemma kinds_pastSemicolon (hkinds : c.kinds = ks ++ [.endOfFile]) :
    ∃ ts us, ks = ts ++ us ∧ (pastSemicolon c).kinds = us ++ [.endOfFile] := by
  unfold pastSemicolon
  split
  · next hsymbol =>
    have hkind := Cursor.atSymbol_iff.1 hsymbol
    have hend : c.atEnd = false := congrArg TokenKind.isEnd hkind
    obtain ⟨us, hks, hus⟩ := (Cursor.Consumes.advance hend).passes.kinds_eq hkinds
    exact ⟨_, us, hks, hus⟩
  · exact ⟨[], ks, rfl, hkinds⟩

/-- At the end of the text there are no statements. -/
lemma topLevel_of_atEnd (rounds : Nat) (h : c.atEnd) : topLevel expr rounds c = ([], c) := by
  cases rounds with
  | zero => rfl
  | succ rounds => simp [topLevel, h]

/-- A statement is read or skipped next: the text goes on, no closing brace stands here and the
error list is not full. -/
structure Ready (c : Cursor) : Prop where
  atEnd : c.atEnd = false
  isFull : c.faults.isFull = false
  closeBrace : c.atSymbol .closeBrace = false

/-- A statement is read, and then further ones. -/
lemma topLevel_of_statement (rounds : Nat) {stmt : Stmt} {c₁ : Cursor} (hready : Ready c)
    (h : statement expr c = (some stmt, c₁)) :
    topLevel expr (rounds + 1) c =
      (stmt :: (topLevel expr rounds c₁).1, (topLevel expr rounds c₁).2) := by
  rw [topLevel, hready.atEnd, hready.isFull, hready.closeBrace, h]
  rfl

/-- A statement is skipped, and then further ones are read. -/
lemma topLevel_of_skip (rounds : Nat) {c₁ : Cursor} (hready : Ready c)
    (h : statement expr c = (none, c₁)) :
    topLevel expr (rounds + 1) c = topLevel expr rounds c₁.synchronize := by
  rw [topLevel, hready.atEnd, hready.isFull, hready.closeBrace, h]
  rfl

/-- Both runs are ready together. -/
lemma Ready.of_abreast {S : Comparison} {moved : Prop} (hready : Ready c)
    (h : S.Abreast moved c c') (hlost : ¬ S.lost c) : Ready c' where
  atEnd := (h.atEnd_eq hlost).trans hready.atEnd
  isFull := (S.isFull h.faults hlost).symm.trans hready.isFull
  closeBrace := (h.atSymbol_eq hlost _).trans hready.closeBrace

end Parser

/-! ### Reading through the common beginning -/

open Lugha.Parser

namespace Comparison

variable {S : Comparison} {n : Nat} {expr : Parser Expr} {c c' : Cursor} {ks : List TokenKind}

/-- The first run goes through the rest of the common beginning, statement by statement, and never
depends on what follows it: every statement is read or found malformed before the end of the common
beginning, and a malformed one is skipped up to a semicolon there at the latest. -/
inductive ReadsThrough (S : Comparison) (expr : Parser Expr) : Nat → Cursor → Prop
  | done {rounds : Nat} {c : Cursor} (hend : c.atEnd) (hlength : c.rest.length ≤ S.tail.length) :
      ReadsThrough S expr rounds c
  | read {rounds : Nat} {c c₀ : Cursor} {stmt : Stmt} (hready : Ready c)
      (hread : unterminated expr c = (some stmt, c₀)) (hlost : ¬ S.lost c₀)
      (hnext : ReadsThrough S expr rounds (pastSemicolon c₀)) : ReadsThrough S expr (rounds + 1) c
  | skip {rounds : Nat} {c c₀ : Cursor} (hready : Ready c)
      (hread : unterminated expr c = (none, c₀)) (hlost : ¬ S.lost c₀)
      (hahead : S.SemicolonAhead c₀.rest) (hnext : ReadsThrough S expr rounds c₀.synchronize) :
      ReadsThrough S expr (rounds + 1) c

/-- The second run reads the same from the common beginning, and then what follows it. -/
lemma ReadsThrough.followed (hexpr : S.UniformExpr expr) {rounds rounds' : Nat}
    (h : S.ReadsThrough expr rounds c) (habreast : S.Abreast False c c')
    (hrounds' : c'.rest.length ≤ rounds') :
    ∃ stmts left c₁, topLevel expr rounds' c' =
        (stmts ++ (topLevel expr left c₁).1, (topLevel expr left c₁).2) ∧
      Stmt.mapSpansList S.view (topLevel expr rounds c).1 = Stmt.mapSpansList S.view stmts ∧
      c₁.rest = S.tail' ∧ S.tail'.length ≤ left ∧
      S.faults (topLevel expr rounds c).2.faults c₁.faults := by
  have hunterminated : S.UniformStmt (unterminated expr) := fun _ _ => parallel_unterminated hexpr
  -- in a round that reads or skips a statement, the second run has a round left
  have hround {c c' c₀ : Cursor} {x : Option Stmt} {rounds' : Nat} (h : S.Abreast False c c')
      (hread : unterminated expr c = (x, c₀)) (hlost : ¬ S.lost c₀)
      (hrounds' : c'.rest.length ≤ rounds') :
      ¬ S.lost c ∧ c.Onward c₀ ∧ ∃ left, rounds' = left + 1 := by
    have honward := (hunterminated 0 0).onward c
    rw [hread] at honward
    have hstart : ¬ S.lost c := mt (S.lost_of_onward honward) hlost
    obtain ⟨-, left, -, hleft⟩ := h.rounds hstart (Nat.le_refl _) hrounds'
    exact ⟨hstart, honward, left, hleft⟩
  induction h generalizing rounds' c' with
  | @done rounds c hend hlength =>
    have htail : c'.rest = S.tail' := habreast.rest.eq_tail hlength
    rw [topLevel_of_atEnd rounds hend]
    exact ⟨[], rounds', c', rfl, rfl, htail, htail ▸ hrounds', habreast.faults⟩
  | @read rounds c c₀ stmt hready hread hlost hnext ih =>
    obtain ⟨hstart, -, left, rfl⟩ := hround habreast hread hlost hrounds'
    have hagree := (hunterminated _ _).agree habreast (Nat.le_refl _) (Nat.le_refl _)
    have hshorter := (hunterminated _ 0).shorter rfl (Nat.le_refl _) hread (habreast.ne_nil hstart)
    rw [hread] at hagree
    generalize hread' : unterminated expr c' = x' at hagree
    cases hagree with
    | lost h => exact absurd h hlost
    | @ok _ stmt' _ c₀' hstmt h₀ =>
      have hless := Nat.lt_of_le_of_lt (onward_pastSemicolon c₀).length_le hshorter
      have h₁ := pastSemicolon_abreast h₀ hlost
      have hleft : (pastSemicolon c₀').rest.length ≤ left :=
        (habreast.length_le h₁ (Nat.le_succ _) hrounds' hless).2
      obtain ⟨stmts, left', c₁, hfurther, hstmts, hrest⟩ := ih h₁ hleft
      rw [topLevel_of_statement rounds hready (statement_eq_of_some hread),
        topLevel_of_statement left (hready.of_abreast habreast hstart)
          (statement_eq_of_some hread'),
        hfurther]
      refine ⟨stmt' :: stmts, left', c₁, rfl, ?_, hrest⟩
      rw [Stmt.mapSpansList, Stmt.mapSpansList, hstmt, hstmts]
  | @skip rounds c c₀ hready hread hlost hahead hnext ih =>
    obtain ⟨hstart, honward, left, rfl⟩ := hround habreast hread hlost hrounds'
    have hagree := (hunterminated _ _).agree habreast (Nat.le_refl _) (Nat.le_refl _)
    rw [hread] at hagree
    generalize hread' : unterminated expr c' = x' at hagree
    cases hagree with
    | lost h => exact absurd h hlost
    | @fail _ c₀' h₀ =>
      have h₁ : S.Abreast False c₀.synchronize c₀'.synchronize :=
        (resume_abreast h₀.faults h₀.rest false _ _).resolve_right fun h => h.2 hahead
      have hless := Cursor.length_synchronize_lt honward hready.atEnd hready.closeBrace
      have hleft : c₀'.synchronize.rest.length ≤ left :=
        (habreast.length_le h₁ (Nat.le_succ _) hrounds' hless).2
      rw [topLevel_of_skip rounds hready (statement_eq_of_none hread),
        topLevel_of_skip left (hready.of_abreast habreast hstart) (statement_eq_of_none hread')]
      exact ih h₁ hleft

section Clean

variable (hexpr : Placement.any.watch.YieldsExpr n n expr)

include hexpr

/-- A statement that is read without a fault is read before the last semicolon. -/
lemma unterminated_of_clean (hkinds : c.kinds = ks ++ [.endOfFile]) (hclosed : Closed ks)
    {stmt : Stmt} {c₀ : Cursor} (hread : unterminated expr c = (some stmt, c₀))
    (hclean : c₀.faults.total = c.faults.total) :
    1 < c₀.rest.length ∧ ∃ ts us, ks = ts ++ us ∧ ts ≠ [] ∧
      (pastSemicolon c₀).kinds = us ++ [.endOfFile] := by
  have hfirst := sound_unterminated hexpr (c := c)
  rw [hread] at hfirst
  obtain ⟨_, ts, hs, hpasses, hspelled⟩ := hfirst.read hclean
  cases hs
  obtain ⟨us, rfl, hus⟩ := hpasses.kinds_eq hkinds
  have hne : us ≠ [] := by
    rintro rfl
    rw [List.append_nil] at hclosed
    exact hclosed.ne_of_unended hspelled.spells.unended
  have hlength : c₀.rest.length = us.length + 1 := by
    simpa [Cursor.kinds] using congrArg List.length hus
  have hpos := List.length_pos_iff.2 hne
  obtain ⟨vs, ws, rfl, hws⟩ := kinds_pastSemicolon hus
  have hts := hspelled.spells.ne_nil
  exact ⟨by omega, ts ++ vs, ws, (List.append_assoc ..).symm, by simp [hts], hws⟩

/-- Where statements are read without a fault, one is read next. -/
lemma ready_of_clean {k : TokenKind} {rounds : Nat} (hkinds : c.kinds = (k :: ks) ++ [.endOfFile])
    (hclosed : Closed (k :: ks)) (hclean : (topLevel expr (rounds + 1) c).2.faults.total = 0) :
    Ready c := by
  have hstart : c.faults.total = 0 :=
    Nat.le_zero.1 (hclean ▸ (sound_topLevel hexpr (rounds + 1) c).total_le)
  have hend : c.atEnd = false := by
    rw [← Bool.not_eq_true, Cursor.atEnd_iff, Cursor.kind_of_kinds hkinds]
    rintro rfl
    exact hclosed.noEnd List.mem_cons_self
  have hfull : c.faults.isFull = false := by simp [ErrorList.isFull, hstart, ErrorList.capacity]
  refine ⟨hend, hfull, ?_⟩
  rw [← Bool.not_eq_true]
  intro hbrace
  have hle := (sound_topLevel hexpr rounds (c.report .strayBrace c.span).advance).total_le
  rw [topLevel, hend, hfull, hbrace] at hclean
  rw [Cursor.faults_advance] at hle
  exact absurd hclean (Nat.ne_of_gt (Nat.lt_of_lt_of_le (Nat.succ_pos _) hle))

/-- Statements that are read without a fault and end with a semicolon are read through. -/
lemma readsThrough_of_clean (htail : 1 ≤ S.tail.length)
    (hlost : ∀ {c : Cursor}, 1 < c.rest.length → c.faults.total = 0 → ¬ S.lost c) {rounds : Nat}
    (hkinds : c.kinds = ks ++ [.endOfFile]) (hclosed : Closed ks) (hrounds : c.rest.length ≤ rounds)
    (hclean : (topLevel expr rounds c).2.faults.total = 0) : S.ReadsThrough expr rounds c := by
  induction rounds generalizing c ks with
  | zero =>
    have hlength := congrArg List.length hkinds
    simp [Cursor.kinds, Nat.le_zero.1 hrounds] at hlength
  | succ rounds ih =>
    have hlength : c.rest.length = ks.length + 1 := by
      simpa [Cursor.kinds] using congrArg List.length hkinds
    cases ks with
    | nil =>
      have hend : c.atEnd := Cursor.atEnd_iff.2 (Cursor.kind_of_kinds hkinds)
      exact .done hend (hlength ▸ htail)
    | cons k ks =>
      have hready := ready_of_clean hexpr hkinds hclosed hclean
      have hfirst := sound_unterminated hexpr (c := c)
      generalize hread : unterminated expr c = x at hfirst
      rcases x with ⟨_ | stmt, c₀⟩
      · have hfurther := (sound_topLevel hexpr rounds c₀.synchronize).total_le
        rw [Cursor.faults_synchronize] at hfurther
        rw [topLevel_of_skip rounds hready (statement_eq_of_none hread)] at hclean
        have hlt := Nat.lt_of_lt_of_le hfirst.total_lt hfurther
        exact absurd hclean (Nat.ne_of_gt (Nat.zero_lt_of_lt hlt))
      · rw [topLevel_of_statement rounds hready (statement_eq_of_some hread)] at hclean
        have hfurther := (sound_topLevel hexpr rounds (pastSemicolon c₀)).total_le
        have htotal := hfirst.total_le
        rw [faults_pastSemicolon] at hfurther
        dsimp only at hclean hfurther htotal
        obtain ⟨hlong, ts, us, hks, hts, hus⟩ :=
          unterminated_of_clean hexpr hkinds hclosed hread (by omega)
        have hless : (pastSemicolon c₀).rest.length ≤ rounds := by
          have hlength₁ : (pastSemicolon c₀).rest.length = us.length + 1 := by
            simpa [Cursor.kinds] using congrArg List.length hus
          have hlength₂ := congrArg List.length hks
          have hpos := List.length_pos_iff.2 hts
          simp only [List.length_append, List.length_cons] at hlength hlength₂
          omega
        exact .read hready hread (hlost hlong (by omega))
          (ih hus (hks ▸ hclosed).of_append hless hclean)

end Clean

end Comparison

/-! ### Tokens that are read as statements -/

/-- Tokens of the given kinds, with a mark of the end after them, are read without a fault as the
given statements, wherever they stand. -/
def Stmt.ReadFrom (ks : List TokenKind) (stmts : List Stmt) : Prop :=
  ∀ (c : Cursor) (rounds : Nat), c.kinds = ks ++ [.endOfFile] → c.faults = .empty →
    c.rest.length ≤ rounds →
    Stmt.mapSpansList .forget (topLevel (expression maxNesting) rounds c).1 =
        Stmt.mapSpansList .forget stmts ∧
      (topLevel (expression maxNesting) rounds c).2.faults = .empty

/-- The mark of the end is never passed over, whatever stands before it. -/
lemma Parser.rest_topLevel_pos {c : Cursor} {ks : List TokenKind}
    (hkinds : c.kinds = ks ++ [.endOfFile]) (rounds : Nat) :
    0 < (topLevel (expression maxNesting) rounds c).2.rest.length := by
  obtain ⟨ts, hpasses⟩ := (sound_topLevel (derives_expression maxNesting) rounds c).passed
  obtain ⟨us, -, hus⟩ := hpasses.kinds_eq hkinds
  have hlength := congrArg List.length hus
  simp only [Cursor.kinds, List.length_map, List.length_append, List.length_singleton] at hlength
  exact Nat.lt_of_lt_of_eq (Nat.succ_pos us.length) hlength.symm

namespace Stmt.ReadFrom

/-- No tokens are read as no statements. -/
lemma nil : Stmt.ReadFrom [] [] := by
  intro c rounds hkinds hfaults hrounds
  have hend : c.atEnd := Cursor.atEnd_iff.2 (Cursor.kind_of_kinds hkinds)
  rw [topLevel_of_atEnd rounds hend]
  exact ⟨rfl, hfaults⟩

/-- Tokens that end with a semicolon, and others after them. -/
lemma append {ks ls : List TokenKind} {stmts more : List Stmt} (h : Stmt.ReadFrom ks stmts)
    (hclosed : Closed ks) (hmore : Stmt.ReadFrom ls more) :
    Stmt.ReadFrom (ks ++ ls) (stmts ++ more) := by
  intro c rounds hkinds hfaults hrounds
  rw [Cursor.kinds, List.append_assoc] at hkinds
  obtain ⟨ts, us, hrest, hts, hus⟩ := List.map_eq_append_iff.1 hkinds
  let ending : Token := ⟨.endOfFile, .synthetic⟩
  let alone : Cursor := ⟨ts ++ [ending], .synthetic, .empty⟩
  have halone : alone.kinds = ks ++ [.endOfFile] := by
    simp [alone, ending, Cursor.kinds, hts]
  obtain ⟨hstmts, hclean⟩ := h alone alone.rest.length halone rfl (Nat.le_refl _)
  have hlast (n : String) : (ts.map (·.kind)).getLast? ≠ some (.name n) := by
    intro hname
    rw [hts] at hname
    cases hclosed.last _ hname
  have habreast : (Comparison.placeless [ending] us).Abreast False alone c := by
    refine ⟨?_, False.elim, by rw [hfaults]; rfl⟩
    rw [hrest]
    exact Comparison.rest_placeless rfl hlast
  have hthrough := Comparison.readsThrough_of_clean (S := .placeless [ending] us)
    (derives_expression maxNesting) (Nat.le_refl 1) (fun hlong _ => Nat.not_le.2 hlong) halone
    hclosed (Nat.le_refl _) (congrArg ErrorList.total hclean)
  obtain ⟨stmts', left, c₁, htop, hsame, hc₁, hleft, hfaults₁⟩ :=
    hthrough.followed (Comparison.parallel_expression maxNesting) habreast hrounds
  replace hc₁ : c₁.rest = us := hc₁
  replace hsame : Stmt.mapSpansList .forget (topLevel (expression maxNesting) alone.rest.length
    alone).1 = Stmt.mapSpansList .forget stmts' := hsame
  have hempty : c₁.faults = .empty := by
    rw [hclean] at hfaults₁
    exact ErrorList.eq_empty_of_map hfaults₁
  have hkinds₁ : c₁.kinds = ls ++ [.endOfFile] := by
    rw [Cursor.kinds, hc₁, hus]
  obtain ⟨hmore₁, hclean₁⟩ := hmore c₁ left hkinds₁ hempty (hc₁ ▸ hleft)
  rw [htop]
  refine ⟨?_, hclean₁⟩
  simp only [Stmt.mapSpansList_eq, List.map_append] at hstmts hsame hmore₁ ⊢
  rw [← hsame, hstmts, hmore₁]

/-- Tokens that are read without a fault are so read wherever they stand. -/
lemma of_parseTokens {tokens : List Token} {ks : List TokenKind}
    (htokens : tokens.map (·.kind) = ks ++ [.endOfFile])
    (hclean : (parseTokens tokens).2 = .empty) :
    Stmt.ReadFrom ks (parseTokens tokens).1.stmts := by
  intro c rounds hkinds hfaults hrounds
  have hkinds₀ := Cursor.kinds_ofTokens_of_ended htokens
  have habreast : (Comparison.placeless [] []).Abreast False (.ofTokens tokens) c :=
    ⟨Comparison.rest_of_ended hkinds₀ hkinds, False.elim, by rw [hfaults]; rfl⟩
  have houtcome := Comparison.programStatements_outcome
    (Comparison.parallel_expression maxNesting) habreast (Nat.le_refl _) hrounds
  cases houtcome with
  | ok hsame h =>
    have hempty : ErrorList.map Fault.error (parseTokens tokens).2 = ErrorList.map Fault.error _ :=
      h.faults
    rw [hclean] at hempty
    exact ⟨hsame.symm, ErrorList.eq_empty_of_map hempty⟩
  | lost hlost =>
    have hnone : List.length _ ≤ 0 := hlost
    exact absurd (rest_topLevel_pos hkinds₀ _) (Nat.not_lt.2 hnone)

end Stmt.ReadFrom

/-! ### Texts -/

/-- Without a report in two lists there is none in either. -/
lemma ErrorList.append_total {ε : Type} {es fs : ErrorList ε} (h : (es.append fs).total = 0) :
    es.total = 0 ∧ fs = .empty := by
  rcases fs with ⟨kept, total⟩
  simp only [append, total_foldl_push] at h
  have hkept : kept = [] := List.length_eq_zero_iff.1 (by omega)
  subst hkept
  simp only [List.length_nil] at h
  obtain rfl : total = 0 := by omega
  exact ⟨by omega, rfl⟩

namespace Source

/-- A source that is read without a fault is a layout of tokens that are read as its statements. -/
lemma readFrom_of_clean {src : Source} (h : src.parse.diagnostics.hasErrors = false) :
    ∃ ks, LaidOut ks src.text.toList ∧ (scan src.text).1.map (·.kind) = ks ++ [.endOfFile] ∧
      Stmt.ReadFrom ks src.parse.program.stmts := by
  have htotal : ((scan src.text).2.append (parseTokens (scan src.text).1).2).total = 0 :=
    Nat.eq_zero_of_not_pos (of_decide_eq_false h)
  obtain ⟨hlexical, hgrammatical⟩ := ErrorList.append_total htotal
  obtain ⟨ks, hlaid, hkinds⟩ :=
    laidOut_of_scanFrom .origin src.text.toList (scan_eq_empty hlexical)
  exact ⟨ks, hlaid, hkinds, .of_parseTokens hkinds hgrammatical⟩

/-- A layout of tokens that are read as statements is a source of them. -/
lemma accepted_of_readFrom {src : Source} {ks : List TokenKind} {stmts : List Stmt}
    (hlaid : LaidOut ks src.text.toList) (hread : Stmt.ReadFrom ks stmts) :
    src.parse.accepted = .ok src.parse.program ∧
      Stmt.mapSpansList .forget src.parse.program.stmts = Stmt.mapSpansList .forget stmts := by
  obtain ⟨hkinds, hscan⟩ := hlaid.scanFrom .origin
  replace hkinds : (scan src.text).1.map (·.kind) = ks ++ [.endOfFile] := hkinds
  obtain ⟨hsame, hclean⟩ := hread (.ofTokens (scan src.text).1) _
    (Cursor.kinds_ofTokens_of_ended hkinds) rfl (Nat.le_refl _)
  have hempty : src.parse.diagnostics = .empty := by
    have hlexical : (scan src.text).2 = .empty := hscan
    have hgrammatical : (parseTokens (scan src.text).1).2 = .empty := hclean
    simp only [parse, hlexical, hgrammatical]
    rfl
  refine ⟨?_, hsame⟩
  simp [Parsed.accepted, hempty, ErrorList.hasErrors, ErrorList.empty]

end Source

end Lugha
