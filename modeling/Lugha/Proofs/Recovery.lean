import Lugha.Proofs.Concatenation
import Lugha.Proofs.Semicolons

/-!
# Errors stay within their statement

A statement that cannot be read is skipped up to a semicolon.  Let statements that are read without
a fault be followed by any tokens without braces, a semicolon and any further tokens.  Then what is
wrong in the middle changes nothing before it or after it: the three parts are read as they are
alone, and what is reported of the middle and of the end is what is reported of them alone.

The three parts are read one after the other, each abreast with the part alone
(`Comparison.later`).  The first part is read through since it has no fault, and the middle since no
parser moves past a semicolon where there are no braces.  The run on the end alone has reported
nothing before; the two runs do the same as long as neither error list is full.
-/

namespace Lugha

open Lugha.Parser

/-! ### Error lists -/

/-- Reports are kept while there is room. -/
lemma ErrorList.kept_foldl_push {ε : Type} (es : ErrorList ε) (added : List ε)
    (h : es.kept.length + added.length ≤ capacity) :
    (added.foldl push es).kept = es.kept ++ added := by
  induction added generalizing es with
  | nil => simp
  | cons e added ih =>
    rw [List.length_cons] at h
    have hroom : es.kept.length < capacity := by omega
    have hpush : (es.push e).kept = es.kept ++ [e] := by simp [push, hroom]
    have hlength : (es.push e).kept.length + added.length ≤ capacity := by
      rw [hpush, List.length_append, List.length_singleton]
      omega
    rw [List.foldl_cons, ih _ hlength, hpush, List.append_assoc, List.singleton_append]

/-! ### Reading after other reports -/

namespace Comparison

/-- Two runs on the same tokens, when the second one has reported some faults before. They are
compared as long as the first one has not passed the common beginning and the error list of the
second one is not full. -/
def later (before : ErrorList Fault) (tail tail' : List Token) : Comparison where
  view := id
  tail := tail
  tail' := tail'
  faults es es' := ∃ added : List Fault, es = added.foldl ErrorList.push .empty ∧
    es' = added.foldl ErrorList.push before
  lost c := c.rest.length ≤ tail.length ∨ ErrorList.capacity ≤ before.total + c.faults.total
  view_merge ha hb := congrArg₂ Span.merge ha hb
  push := by
    rintro _ _ s s' e ⟨added, rfl, rfl⟩ hspan
    obtain rfl : s = s' := hspan
    refine ⟨added ++ [⟨e, s⟩], ?_, ?_⟩
    · rw [List.foldl_append]
      rfl
    · rw [List.foldl_append]
      rfl
  isFull := by
    rintro c c' ⟨added, hc, hc'⟩ hlost
    have htotal : c.faults.total = added.length := by
      rw [hc, ErrorList.total_foldl_push]
      exact Nat.zero_add _
    have htotal' : c'.faults.total = before.total + added.length := by
      rw [hc', ErrorList.total_foldl_push]
    unfold ErrorList.isFull
    rw [decide_eq_decide, htotal, htotal']
    omega
  lost_of_length_le := .inl
  lost_of_onward h hlost := by
    have hlength := h.length_le
    have htotal := h.total_le
    omega

/-- Where tokens of the common beginning are left, and room for reports, the runs are compared. -/
lemma not_lost_later {before : ErrorList Fault} {tail tail' : List Token} {c : Cursor}
    (hlong : tail.length < c.rest.length)
    (hroom : before.total + c.faults.total < ErrorList.capacity) :
    ¬ (later before tail tail').lost c := by
  rintro (hlength | hfull)
  · exact absurd hlength (Nat.not_le.2 hlong)
  · exact absurd hfull (Nat.not_le.2 hroom)

variable {S : Comparison} {expr : Parser Expr} {c : Cursor}

/-- After a statement before a semicolon, the cursor is still there or has passed the semicolon. -/
lemma before_pastSemicolon {after : List Token} (h : c.Before after) :
    (pastSemicolon c).Before after ∨ (pastSemicolon c).rest = after := by
  unfold pastSemicolon
  rcases h.kind_cases with ⟨hkind, hafter⟩ | ⟨hloose, -⟩
  · rw [if_pos (Cursor.atSymbol_iff.2 hkind)]
    exact .inr hafter
  · rw [if_neg fun hsymbol => hloose.ne_semicolon (Cursor.atSymbol_iff.1 hsymbol)]
    exact .inl h

/-- Tokens without braces, and the semicolon after them, are read through, whatever they are. -/
lemma readsThrough_of_before {n : Nat}
    (hstays : (Conduct.staying S.tail).watch.YieldsExpr n n expr) {ending : Token}
    (htail : S.tail = [ending]) (hending : ending.kind = .endOfFile)
    (hlost : ∀ {c : Cursor}, S.tail.length < c.rest.length →
      c.faults.total < ErrorList.capacity → ¬ S.lost c)
    {rounds : Nat} (h : c.Before S.tail ∨ c.rest = S.tail) (hrounds : c.rest.length ≤ rounds)
    (hroom : (topLevel expr rounds c).2.faults.total < ErrorList.capacity) :
    S.ReadsThrough expr rounds c := by
  have htotal (rounds : Nat) (c : Cursor) :
      c.faults.total ≤ (topLevel expr rounds c).2.faults.total :=
    (yields_programStatements hstays rounds c trivial).onward.total_le
  induction rounds generalizing c with
  | zero =>
    rcases h with h | hdone
    · exact absurd h.length_lt (by omega)
    · rw [hdone, htail] at hrounds
      exact absurd hrounds (Nat.not_succ_le_zero 0)
  | succ rounds ih =>
    rcases h with h | hdone
    · have hfull : c.faults.isFull = false :=
        decide_eq_false (Nat.not_le.2 (Nat.lt_of_le_of_lt (htotal _ c) hroom))
      have hready : Ready c := ⟨h.atEnd, hfull, h.atSymbol_closeBrace⟩
      have hbefore := stays_unterminated hstays h
      have hunterminated := yields_unterminated hstays (c := c) trivial
      generalize hread : unterminated expr c = x at hbefore hunterminated
      rcases x with ⟨_ | stmt, c₀⟩ <;> dsimp only at hbefore
      · rw [topLevel_of_skip rounds hready (statement_eq_of_none hread)] at hroom
        have hskip := (Cursor.Onward.synchronize c₀).total_le
        have hshorter : c₀.synchronize.rest.length < c.rest.length :=
          Cursor.length_synchronize_lt hunterminated.onward h.atEnd h.atSymbol_closeBrace
        obtain ⟨ts, t, hrest, ht, -⟩ := id hbefore
        refine .skip hready hread (hlost hbefore.length_lt ?_) ⟨ts, t, _, hrest, ht, Nat.le_refl _⟩
          (ih (hbefore.resume false) (by omega) hroom)
        exact Nat.lt_of_le_of_lt (Nat.le_trans hskip (htotal rounds _)) hroom
      · rw [topLevel_of_statement rounds hready (statement_eq_of_some hread)] at hroom
        have hfurther := htotal rounds (pastSemicolon c₀)
        have hshorter := hunterminated.length_lt Stmt.Derived.ne_nil
        have hpast := (onward_pastSemicolon c₀).length_le
        rw [faults_pastSemicolon] at hfurther
        exact .read hready hread (hlost hbefore.length_lt (Nat.lt_of_le_of_lt hfurther hroom))
          (ih (before_pastSemicolon hbefore) (by omega) hroom)
    · have hend : c.atEnd := by
        rw [Cursor.atEnd_iff, ← hending]
        simp [Cursor.kind, Cursor.peek, hdone, htail]
      exact .done hend (Nat.le_of_eq (congrArg List.length hdone))

end Comparison

/-! ### Tokens that are read alike whatever follows -/

/-- Tokens that are read as the given statements, with the given faults, whatever follows them:
then the parser stands before what follows. -/
def Stmt.ReadBefore (ts : List Token) (stmts : List Stmt) (faults : ErrorList Fault) : Prop :=
  ∀ (more : List Token) (c : Cursor) (rounds : Nat), c.rest = ts ++ more → c.faults = .empty →
    c.rest.length ≤ rounds → ∃ left c₁, topLevel (expression maxNesting) rounds c =
        (stmts ++ (topLevel (expression maxNesting) left c₁).1,
          (topLevel (expression maxNesting) left c₁).2) ∧
      c₁.rest = more ∧ more.length ≤ left ∧ c₁.faults = faults

namespace Cursor

/-- A mark of the end stands last in what is read. -/
lemma exists_kinds_ofTokens (tokens : List Token) :
    ∃ ks, (ofTokens tokens).kinds = ks ++ [.endOfFile] := by
  rcases tokens.eq_nil_or_concat' with rfl | ⟨ts, t, rfl⟩
  · exact ⟨[], rfl⟩
  · unfold kinds ofTokens
    rw [List.getLast?_concat]
    dsimp only
    split
    · next hend => exact ⟨ts.map (·.kind), by simp [TokenKind.isEnd_iff.1 hend]⟩
    · exact ⟨(ts ++ [t]).map (·.kind), by simp⟩

/-- A mark of the end is added to tokens without one. -/
lemma exists_rest_ofTokens {tokens : List Token} (h : ∀ t ∈ tokens, t.kind ≠ .endOfFile) :
    ∃ ending : Token, ending.kind = .endOfFile ∧ (ofTokens tokens).rest = tokens ++ [ending] := by
  rcases tokens.eq_nil_or_concat' with rfl | ⟨ts, t, rfl⟩
  · exact ⟨_, rfl, rfl⟩
  · have hlast : t.kind.isEnd = false :=
      Bool.not_eq_true _ ▸ mt TokenKind.isEnd_iff.1 (h t (by simp))
    refine ⟨⟨.endOfFile, t.span⟩, rfl, ?_⟩
    simp [ofTokens, hlast]

/-- Only the last tokens decide whether a mark of the end is added. -/
lemma rest_ofTokens_append (ts : List Token) {us : List Token} (h : us ≠ []) :
    (ofTokens (ts ++ us)).rest = ts ++ (ofTokens us).rest := by
  rcases us.eq_nil_or_concat' with rfl | ⟨us, t, rfl⟩
  · exact absurd rfl h
  · unfold ofTokens
    rw [← List.append_assoc, List.getLast?_concat, List.getLast?_concat]
    dsimp only
    split
    · exact List.append_assoc ..
    · simp

end Cursor

namespace Stmt.ReadBefore

/-- Tokens that are read through are read as they are alone. -/
lemma of_readsThrough {ts : List Token} {ending : Token}
    (hrest : (Cursor.ofTokens ts).rest = ts ++ [ending])
    (hlast : ∀ n, (ts.map (·.kind)).getLast? ≠ some (.name n))
    (hthrough : ∀ more, (Comparison.later .empty [ending] more).ReadsThrough
      (expression maxNesting) (Cursor.ofTokens ts).rest.length (.ofTokens ts)) :
    Stmt.ReadBefore ts (parseTokens ts).1.stmts (parseTokens ts).2 := by
  intro more c rounds hc hfaults hrounds
  have habreast : (Comparison.later .empty [ending] more).Abreast False (.ofTokens ts) c := by
    refine ⟨?_, False.elim, [], rfl, hfaults⟩
    rw [hrest, hc]
    exact Comparison.rest_append rfl hlast
  obtain ⟨stmts, left, c₁, htop, hsame, hc₁, hleft, added, hadded, hadded'⟩ :=
    (hthrough more).followed (Comparison.parallel_expression maxNesting) habreast hrounds
  have hstmts : (parseTokens ts).1.stmts = stmts := by
    have hsame : Stmt.mapSpansList id (parseTokens ts).1.stmts = Stmt.mapSpansList id stmts := hsame
    rwa [Stmt.mapSpansList_id, Stmt.mapSpansList_id] at hsame
  rw [hstmts]
  exact ⟨left, c₁, htop, hc₁, hleft, hadded'.trans hadded.symm⟩

/-- Tokens that are read without a fault and end with a semicolon, if there are any. -/
lemma of_clean {ts : List Token} (hclosed : Closed (ts.map (·.kind)))
    (hclean : (parseTokens ts).2 = .empty) :
    Stmt.ReadBefore ts (parseTokens ts).1.stmts .empty := by
  have hnoEnd : ∀ t ∈ ts, t.kind ≠ .endOfFile := by
    intro t ht hkind
    exact hclosed.noEnd (hkind ▸ List.mem_map_of_mem ht)
  obtain ⟨ending, hending, hrest⟩ := Cursor.exists_rest_ofTokens hnoEnd
  have hkinds : (Cursor.ofTokens ts).kinds = ts.map (·.kind) ++ [.endOfFile] := by
    simp [Cursor.kinds, hrest, hending]
  have hlast (n : String) : (ts.map (·.kind)).getLast? ≠ some (.name n) := by
    intro hname
    cases hclosed.last _ hname
  rw [← hclean]
  refine of_readsThrough hrest hlast fun more => ?_
  have hlost {c : Cursor} (hlong : 1 < c.rest.length) (htotal : c.faults.total = 0) :
      ¬ (Comparison.later .empty [ending] more).lost c := by
    refine Comparison.not_lost_later hlong ?_
    rw [htotal]
    decide
  exact Comparison.readsThrough_of_clean (S := .later .empty [ending] more)
    (derives_expression maxNesting) (Nat.le_refl 1) hlost hkinds hclosed (Nat.le_refl _)
    (congrArg ErrorList.total hclean)

/-- Tokens without braces and the semicolon after them, if they can be read before the error list is
full. -/
lemma of_loose {ts : List Token} {t : Token} (hts : ∀ u ∈ ts, u.kind.Loose)
    (ht : t.kind = .symbol .semicolon)
    (hroom : (parseTokens (ts ++ [t])).2.total < ErrorList.capacity) :
    Stmt.ReadBefore (ts ++ [t]) (parseTokens (ts ++ [t])).1.stmts (parseTokens (ts ++ [t])).2 := by
  have hnoEnd : ∀ u ∈ ts ++ [t], u.kind ≠ .endOfFile := by
    intro u hu
    rcases List.mem_append.1 hu with hu | hu
    · exact (hts u hu).ne_end
    · rw [List.mem_singleton.1 hu, ht]
      exact TokenKind.noConfusion
  obtain ⟨ending, hending, hrest⟩ := Cursor.exists_rest_ofTokens hnoEnd
  have hlast (n : String) : ((ts ++ [t]).map (·.kind)).getLast? ≠ some (.name n) := by
    simp [ht]
  have hbefore : (Cursor.ofTokens (ts ++ [t])).Before [ending] :=
    ⟨ts, t, by rw [hrest, List.append_assoc]; rfl, ht, hts⟩
  refine of_readsThrough hrest hlast fun more => ?_
  have hlost {c : Cursor} (hlong : 1 < c.rest.length)
      (htotal : c.faults.total < ErrorList.capacity) :
      ¬ (Comparison.later .empty [ending] more).lost c := by
    refine Comparison.not_lost_later hlong ?_
    rwa [ErrorList.empty, Nat.zero_add]
  exact Comparison.readsThrough_of_before (S := .later .empty [ending] more)
    (stays_expression maxNesting) rfl hending hlost (.inl hbefore) (Nat.le_refl _) hroom

end Stmt.ReadBefore

/-! ### Tokens that are read after others -/

/-- The same tokens are read alike after other reports, if there is room for all of them. -/
lemma topLevel_later {c c' : Cursor} {ks : List TokenKind} (hkinds : c.kinds = ks ++ [.endOfFile])
    (hrest : c'.rest = c.rest) (hfaults : c.faults = .empty) {rounds rounds' : Nat}
    (hrounds : c.rest.length ≤ rounds) (hrounds' : c'.rest.length ≤ rounds')
    (hroom : c'.faults.total + (topLevel (expression maxNesting) rounds c).2.faults.total <
      ErrorList.capacity) :
    (topLevel (expression maxNesting) rounds' c').1 =
        (topLevel (expression maxNesting) rounds c).1 ∧
      ∃ added : List Fault, (topLevel (expression maxNesting) rounds c).2.faults =
          added.foldl ErrorList.push .empty ∧
        (topLevel (expression maxNesting) rounds' c').2.faults =
          added.foldl ErrorList.push c'.faults := by
  have hlast (n : String) : (c.rest.map (·.kind)).getLast? ≠ some (.name n) := by
    have hkinds : c.rest.map (·.kind) = ks ++ [.endOfFile] := hkinds
    simp [hkinds]
  have habreast : (Comparison.later c'.faults [] []).Abreast False c c' := by
    refine ⟨?_, False.elim, [], hfaults, rfl⟩
    have hsame : (Comparison.later c'.faults [] []).Rest (c.rest ++ []) (c.rest ++ []) :=
      Comparison.rest_append rfl hlast
    rw [List.append_nil] at hsame
    rwa [hrest]
  have houtcome := Comparison.programStatements_outcome
    (Comparison.parallel_expression maxNesting) habreast hrounds hrounds'
  cases houtcome with
  | ok hsame h =>
    have hsame : Stmt.mapSpansList id _ = Stmt.mapSpansList id _ := hsame
    rw [Stmt.mapSpansList_id, Stmt.mapSpansList_id] at hsame
    exact ⟨hsame.symm, h.faults⟩
  | lost hlost =>
    rcases hlost with hnone | hfull
    · exact absurd (rest_topLevel_pos hkinds rounds) (Nat.not_lt.2 hnone)
    · exact absurd hfull (Nat.not_le.2 hroom)

/-- The last of some tokens are read as they are alone, if there is room for all reports. -/
lemma exists_read_last (ts : List Token) {t : Token} (ht : t.kind = .symbol .semicolon)
    (us : List Token) :
    ∃ more, (Cursor.ofTokens (ts ++ [t] ++ us)).rest = ts ++ [t] ++ more ∧
      ∀ (c : Cursor) (rounds : Nat), c.rest = more → more.length ≤ rounds →
        c.faults.total + (parseTokens us).2.total < ErrorList.capacity →
        (topLevel (expression maxNesting) rounds c).1 = (parseTokens us).1.stmts ∧
          ∃ added : List Fault, (parseTokens us).2 = added.foldl ErrorList.push .empty ∧
            (topLevel (expression maxNesting) rounds c).2.faults =
              added.foldl ErrorList.push c.faults := by
  cases us with
  | nil =>
    refine ⟨[⟨.endOfFile, t.span⟩], by simp [Cursor.ofTokens, ht, TokenKind.isEnd], ?_⟩
    intro c rounds hrest _ _
    have hend : c.atEnd := by
      simp [Cursor.atEnd, Cursor.kind, Cursor.peek, hrest, TokenKind.isEnd]
    rw [topLevel_of_atEnd rounds hend]
    exact ⟨rfl, [], rfl, rfl⟩
  | cons u us =>
    obtain ⟨ks, hkinds⟩ := Cursor.exists_kinds_ofTokens (u :: us)
    refine ⟨_, Cursor.rest_ofTokens_append _ (List.cons_ne_nil u us), ?_⟩
    intro c rounds hrest hrounds hroom
    exact topLevel_later hkinds hrest rfl (Nat.le_refl _) (hrest ▸ hrounds) hroom

/-- Fewer reports than fit in a list are all kept. -/
lemma length_kept_parseTokens {tokens : List Token}
    (h : (parseTokens tokens).2.total < ErrorList.capacity) :
    (parseTokens tokens).2.kept.length = (parseTokens tokens).2.total := by
  obtain ⟨ks, hkinds⟩ := Cursor.exists_kinds_ofTokens tokens
  -- the reports are counted by comparing the run with itself
  obtain ⟨-, added, hadded, -⟩ := topLevel_later hkinds rfl rfl (Nat.le_refl _) (Nat.le_refl _)
    (Nat.lt_of_le_of_lt (Nat.le_of_eq (Nat.zero_add _)) h)
  have hfaults : (parseTokens tokens).2 = added.foldl ErrorList.push .empty := hadded
  have htotal : (parseTokens tokens).2.total = added.length := by
    rw [hfaults, ErrorList.total_foldl_push]
    exact Nat.zero_add _
  have hkept : (parseTokens tokens).2.kept = added := by
    rw [hfaults, ErrorList.kept_foldl_push _ _ (by simp [ErrorList.empty]; omega)]
    rfl
  rw [hkept, htotal]

/-! ### Recovery -/

/-- Errors stay within their statement.

Let tokens that are empty, or are read without a fault and end with a semicolon, be followed by any
tokens without semicolons, braces and marks of the end, by a semicolon and by any further tokens. If
the errors in the middle and at the end are fewer than an error list keeps, then the statements that
are read are those of the three parts, and the errors are those of the middle, followed by those of
the end. -/
theorem parseTokens_recovers {before malformed : List Token} {semicolon : Token}
    {after : List Token} (hclosed : Closed (before.map (·.kind)))
    (hclean : (parseTokens before).2 = .empty) (hloose : ∀ t ∈ malformed, t.kind.Loose)
    (hsemicolon : semicolon.kind = .symbol .semicolon)
    (hroom : (parseTokens (malformed ++ [semicolon])).2.total + (parseTokens after).2.total <
      ErrorList.capacity) :
    let middle := parseTokens (malformed ++ [semicolon])
    let whole := parseTokens (before ++ (malformed ++ [semicolon]) ++ after)
    whole.1.stmts = (parseTokens before).1.stmts ++ middle.1.stmts ++ (parseTokens after).1.stmts ∧
      whole.2.kept = middle.2.kept ++ (parseTokens after).2.kept ∧
      whole.2.total = middle.2.total + (parseTokens after).2.total := by
  intro middle whole
  have hfits : middle.2.total < ErrorList.capacity := Nat.lt_of_le_of_lt (Nat.le_add_right ..) hroom
  obtain ⟨more, hrest, hlast⟩ := exists_read_last (before ++ malformed) hsemicolon after
  rw [List.append_assoc before] at hrest
  -- the three parts are read one after the other
  obtain ⟨left, c₁, htop, hc₁, hleft, hfaults⟩ := Stmt.ReadBefore.of_clean hclosed hclean
    (malformed ++ [semicolon] ++ more) _ _ (by rw [hrest, List.append_assoc]) rfl (Nat.le_refl _)
  obtain ⟨left₂, c₂, htop₂, hc₂, hleft₂, hfaults₂⟩ := Stmt.ReadBefore.of_loose hloose hsemicolon
    hfits more c₁ left hc₁ hfaults (hc₁ ▸ hleft)
  obtain ⟨hstmts, added, hadded, hadded'⟩ := hlast c₂ left₂ hc₂ hleft₂ (hfaults₂ ▸ hroom)
  rw [htop₂, hstmts] at htop
  have hwhole : whole.2 = added.foldl ErrorList.push middle.2 := by
    change (topLevel _ _ (.ofTokens _)).2.faults = _
    rw [htop, ← hfaults₂]
    exact hadded'
  have htotal : (parseTokens after).2.total = added.length := by
    rw [hadded, ErrorList.total_foldl_push]
    exact Nat.zero_add _
  have hkept : (parseTokens after).2.kept = added := by
    rw [hadded, ErrorList.kept_foldl_push _ _ (by simp [ErrorList.empty]; omega)]
    rfl
  have hall : middle.2.kept.length + added.length ≤ ErrorList.capacity := by
    rw [length_kept_parseTokens hfits, ← htotal]
    exact Nat.le_of_lt hroom
  refine ⟨?_, ?_, ?_⟩
  · rw [List.append_assoc]
    exact congrArg Prod.fst htop
  · rw [hwhole, hkept, ErrorList.kept_foldl_push _ _ hall]
  · rw [hwhole, htotal, ErrorList.total_foldl_push]

/-- Between two names there are a sign without an operand, a statement that can be read and a
parenthesis that was never opened; a brace without a block follows. -/
theorem parseTokens_recovers_twice :
    let token (k : TokenKind) : Token := ⟨k, .synthetic⟩
    let semicolon := token (.symbol .semicolon)
    let before := [token (.name "x"), semicolon]
    let malformed := [token (.symbol .plus), token (.keyword .rudisha), token (.name "y"),
      token (.symbol .closeParen)]
    let after := [token (.symbol .closeBrace), token (.name "z")]
    let whole := parseTokens (before ++ (malformed ++ [semicolon]) ++ after)
    Closed (before.map (·.kind)) ∧ (∀ t ∈ malformed, t.kind.Loose) ∧
      whole.1.stmts = [.expr (.name .synthetic "x"),
        .returnValue .synthetic (.name .synthetic "y"), .expr (.name .synthetic "z")] ∧
      whole.2.kept.map (·.error) = [.expectedExpression (.symbol .plus),
        .expectedExpression (.symbol .closeParen), .strayBrace] := by
  intro token semicolon before malformed after whole
  have hclosed : Closed (before.map (·.kind)) := by
    refine ⟨by simp [before, token, semicolon], fun k hk => ?_⟩
    exact (Option.mem_some.1 hk).symm
  have hloose : ∀ t ∈ malformed, t.kind.Loose := by
    intro t ht
    simp only [malformed, List.mem_cons, List.not_mem_nil, or_false] at ht
    rcases ht with rfl | rfl | rfl | rfl <;> constructor <;> simp [token]
  have hsemicolon : semicolon.kind = .symbol .semicolon := rfl
  have hroom : (parseTokens (malformed ++ [semicolon])).2.total + (parseTokens after).2.total <
      ErrorList.capacity := by decide
  obtain ⟨hstmts, hkept, -⟩ := parseTokens_recovers hclosed rfl hloose hsemicolon hroom
  refine ⟨hclosed, hloose, ?_, ?_⟩
  · rw [hstmts]
    rfl
  · rw [hkept]
    rfl

end Lugha
