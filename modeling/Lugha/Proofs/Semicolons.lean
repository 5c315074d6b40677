import Lugha.Proofs.Walk

/-!
# Before a semicolon

A semicolon ends a statement, and only a block has statements inside an expression.  So where no
brace stands before the next semicolon, a statement ends there at the latest, whether it can be read
or not: no parser of the grammar moves past the semicolon, with the one exception of what follows a
statement that was read.

`Cursor.Before` says where a cursor stands.  That it stays there is asked of each move.  A block
cannot be read there at all, since no block can be read without its opening brace.
-/

namespace Lugha

/-- The cursor stands before a semicolon, with loose tokens between, and the given tokens follow
the semicolon. -/
def Cursor.Before (after : List Token) (c : Cursor) : Prop :=
  ∃ ts t, c.rest = ts ++ t :: after ∧ t.kind = .symbol .semicolon ∧ ∀ u ∈ ts, u.kind.Loose

namespace Cursor.Before

variable {after : List Token} {c : Cursor}

/-- The next token is the semicolon, or it is loose. -/
lemma kind_cases (h : c.Before after) :
    c.kind = .symbol .semicolon ∧ c.advance.rest = after ∨
      c.kind.Loose ∧ c.advance.Before after := by
  obtain ⟨ts, t, hrest, ht, hts⟩ := h
  rcases c with ⟨rest, previous, faults⟩
  cases ts with
  | nil =>
    obtain rfl : rest = t :: after := hrest
    exact .inl ⟨ht, rfl⟩
  | cons u ts =>
    obtain rfl : rest = u :: (ts ++ t :: after) := hrest
    rw [List.forall_mem_cons] at hts
    exact .inr ⟨hts.1, ts, t, rfl, ht, hts.2⟩

/-- Moving past a token that is no semicolon. -/
lemma advance (h : c.Before after) (hkind : c.kind ≠ .symbol .semicolon) :
    c.advance.Before after := by
  rcases h.kind_cases with ⟨hsemicolon, -⟩ | ⟨-, hadvance⟩
  · exact absurd hsemicolon hkind
  · exact hadvance

/-- The next token is neither a brace nor the mark of the end. -/
lemma kind_ne (h : c.Before after) {k : TokenKind} (hk : k ≠ .symbol .semicolon)
    (hloose : ¬ k.Loose) : c.kind ≠ k := by
  rintro rfl
  rcases h.kind_cases with ⟨hsemicolon, -⟩ | ⟨hnext, -⟩
  · exact hk hsemicolon
  · exact hloose hnext

/-- The next token opens no block. -/
lemma atSymbol_openBrace (h : c.Before after) : c.atSymbol .openBrace = false := by
  rw [← Bool.not_eq_true, atSymbol_iff]
  exact h.kind_ne (by simp) fun hloose => hloose.ne_openBrace rfl

/-- The next token closes no block. -/
lemma atSymbol_closeBrace (h : c.Before after) : c.atSymbol .closeBrace = false := by
  rw [← Bool.not_eq_true, atSymbol_iff]
  exact h.kind_ne (by simp) fun hloose => hloose.ne_closeBrace rfl

/-- The text goes on. -/
lemma atEnd (h : c.Before after) : c.atEnd = false := by
  rw [← Bool.not_eq_true, atEnd_iff]
  exact h.kind_ne (by simp) fun hloose => hloose.ne_end rfl

/-- The semicolon is left, and what follows it. -/
lemma length_lt (h : c.Before after) : after.length < c.rest.length := by
  obtain ⟨ts, t, hrest, -⟩ := h
  rw [hrest, List.length_append, List.length_cons]
  omega

/-- Skipping stops before the semicolon or after it. -/
lemma resume {ts : List Token} {previous : Span} {faults : ErrorList Fault}
    (h : (⟨ts, previous, faults⟩ : Cursor).Before after) (moved : Bool) :
    (Cursor.resume faults moved previous ts).Before after ∨
      (Cursor.resume faults moved previous ts).rest = after := by
  induction ts generalizing moved previous with
  | nil => exact absurd h.length_lt (Nat.not_lt_zero _)
  | cons t ts ih =>
    unfold Cursor.resume
    rcases h.kind_cases with ⟨hsemicolon, hafter⟩ | ⟨hloose, hnext⟩
    · replace hsemicolon : t.kind = .symbol .semicolon := hsemicolon
      rw [hsemicolon]
      exact .inr hafter
    · split
      · exact .inl h
      · exact .inr (absurd ‹_› hloose.ne_semicolon)
      · exact .inl h
      · split
        · exact .inl h
        · exact ih hnext true

end Cursor.Before

/-- A cursor before a semicolon stays there. -/
def Conduct.staying (after : List Token) : Conduct where
  goes _ c _ c' := c.Before after → c'.Before after
  goes_refl h := h
  goes_trans h h' hc := h' (h hc)
  goes_succ h := h
  goes_advance hloose hc := hc.advance hloose.ne_semicolon
  goes_report h := h

namespace Parser

variable {after : List Token} {c : Cursor} {expr : Parser Expr}

/-- No block can be read before a semicolon. -/
lemma before_block (h : c.Before after) : (block expr c).2.Before after := by
  change ((expect .openBrace >>= _) c).2.Before after
  rw [expect_andThen, h.atSymbol_openBrace]
  exact h

/-- Blocks and functions stay before a semicolon. -/
lemma staying_closed : (Conduct.staying after).watch.Closed := by
  have hblock {n : Nat} {expr : Parser Expr}
      (hexpr : (Conduct.staying after).watch.YieldsExpr n n expr) (c : Cursor) :
      (Conduct.staying after).watch.Yields (n + 1) c
        (Block.Derived (Conduct.staying after).watch.placed n) (block expr c) := fun hc =>
    (yields_block_free (m := n) hexpr hc).of_free before_block
  constructor
  · exact fun _ _ _ => before_block
  · exact fun hexpr _ hc hkind => (yields_nameless (fun h => h) (hblock hexpr) hkind hc).goes
  · exact fun hexpr _ hc hkind => (yields_titled (fun h => h) (hblock hexpr) hkind hc).goes

/-- An expression. -/
lemma stays_expression (levels : Nat) :
    (Conduct.staying after).watch.YieldsExpr levels levels (expression levels) :=
  yields_expression staying_closed levels

/-- A statement up to its semicolon. -/
lemma stays_unterminated {n : Nat} (hexpr : (Conduct.staying after).watch.YieldsExpr n n expr)
    (h : c.Before after) : (unterminated expr c).2.Before after :=
  (yields_unterminated hexpr trivial).goes h

end Parser

end Lugha
