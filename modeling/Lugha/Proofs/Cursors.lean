import Lugha.Parser.Program
import Mathlib.Data.List.Basic

/-!
# Moving a cursor

A cursor moves on over tokens, none of which is the mark of the end, and faults are reported on the
way.  `Cursor.Consumes` says which tokens stand between two cursors and which faults were reported
between them, in order; what the later cursor remembers follows from that.  `Cursor.Passes` is what
is left of it if nothing matters but what the tokens are.

Skipping the rest of a statement passes over tokens of which little can be said in general, but
enough to know where it stops.  `Skipped` collects it.
-/

namespace Lugha

/-- The mark of the end. -/
lemma TokenKind.isEnd_iff {k : TokenKind} : k.isEnd ↔ k = .endOfFile := by
  cases k <;> simp [isEnd]

/-- Every report counts. -/
lemma ErrorList.total_foldl_push {ε : Type} (es : ErrorList ε) (fs : List ε) :
    (fs.foldl push es).total = es.total + fs.length := by
  induction fs generalizing es with
  | nil => rfl
  | cons f fs ih =>
    rw [List.foldl_cons, ih, List.length_cons]
    change es.total + 1 + fs.length = _
    omega

namespace Cursor

/-- What the tokens are that are still to be read. -/
def kinds (c : Cursor) : List TokenKind := c.rest.map (·.kind)

/-- The tokens that stand between two cursors. -/
structure Passes (c c' : Cursor) (ts : List TokenKind) : Prop where
  kinds : c.kinds = ts ++ c'.kinds
  noEnd : .endOfFile ∉ ts

@[simp] lemma faults_advance (c : Cursor) : c.advance.faults = c.faults := by
  unfold advance
  split <;> rfl

/-- Before the end a token is left. -/
lemma rest_ne_nil {c : Cursor} (h : c.atEnd = false) : c.rest ≠ [] := by
  intro hnil
  simp [atEnd, kind, peek, hnil, TokenKind.isEnd] at h

/-- Moving past a token leaves one less. -/
lemma length_advance_lt {c : Cursor} (h : c.rest ≠ []) :
    c.advance.rest.length < c.rest.length := by
  rcases c with ⟨_ | ⟨t, rest⟩, previous, faults⟩
  · exact absurd rfl h
  · exact Nat.lt_succ_self _

/-- The next token is a sign. -/
lemma atSymbol_iff {c : Cursor} {s : Symbol} : c.atSymbol s ↔ c.kind = .symbol s := by
  unfold atSymbol
  split <;> simp_all

/-- The next token is a reserved word. -/
lemma atKeyword_iff {c : Cursor} {k : Keyword} : c.atKeyword k ↔ c.kind = .keyword k := by
  unfold atKeyword
  split <;> simp_all

/-- The tokens are at an end. -/
lemma atEnd_iff {c : Cursor} : c.atEnd ↔ c.kind = .endOfFile :=
  TokenKind.isEnd_iff

/-! ### Tokens and reports -/

/-- The tokens that are read between two cursors, and the faults that are reported.  The later
cursor remembers the span of the last token, and all reports. -/
structure Consumes (c c' : Cursor) (ts : List Token) (fs : List Fault) : Prop where
  rest : c.rest = ts ++ c'.rest
  noEnd : ∀ t ∈ ts, t.kind ≠ .endOfFile
  previous : c'.previous = ts.foldl (fun _ t => t.span) c.previous
  faults : c'.faults = fs.foldl ErrorList.push c.faults

namespace Consumes

variable {c c' c'' : Cursor} {ts us : List Token} {fs gs : List Fault}

/-- Nothing is read. -/
lemma refl (c : Cursor) : c.Consumes c [] [] := ⟨rfl, List.forall_mem_nil _, rfl, rfl⟩

/-- Tokens and then more tokens are read. -/
lemma trans (h : c.Consumes c' ts fs) (h' : c'.Consumes c'' us gs) :
    c.Consumes c'' (ts ++ us) (fs ++ gs) where
  rest := by rw [h.rest, h'.rest, List.append_assoc]
  noEnd := List.forall_mem_append.2 ⟨h.noEnd, h'.noEnd⟩
  previous := by rw [h'.previous, h.previous, List.foldl_append]
  faults := by rw [h'.faults, h.faults, List.foldl_append]

/-- The next token is read. -/
lemma advance (h : c.atEnd = false) : c.Consumes c.advance [c.peek] [] := by
  rcases c with ⟨_ | ⟨t, rest⟩, previous, faults⟩
  · cases h
  · refine ⟨rfl, List.forall_mem_singleton.2 fun hkind => ?_, rfl, rfl⟩
    have hend : t.kind.isEnd = false := h
    have hmark : t.kind = .endOfFile := hkind
    rw [hmark] at hend
    cases hend

/-- A fault is reported. -/
lemma report (c : Cursor) (e : SyntaxError) (span : Span) :
    c.Consumes (c.report e span) [] [⟨e, span⟩] :=
  ⟨rfl, List.forall_mem_nil _, rfl, rfl⟩

/-- What the tokens are that were read. -/
lemma passes (h : c.Consumes c' ts fs) : c.Passes c' (ts.map (·.kind)) where
  kinds := by rw [Cursor.kinds, h.rest, List.map_append, ← Cursor.kinds]
  noEnd := by
    intro hmem
    obtain ⟨t, ht, hkind⟩ := List.mem_map.1 hmem
    exact h.noEnd t ht hkind

/-- The tokens that were read are no longer to be read. -/
lemma length_eq (h : c.Consumes c' ts fs) : c.rest.length = ts.length + c'.rest.length := by
  rw [h.rest, List.length_append]

/-- The reports count. -/
lemma total_eq (h : c.Consumes c' ts fs) : c'.faults.total = c.faults.total + fs.length := by
  rw [h.faults, ErrorList.total_foldl_push]

end Consumes

/-! ### Skipping -/

/-- Tokens that are passed over after a report.  No closing brace is among them, a word that begins
a statement can only be the first of them, and a semicolon only the last. -/
structure Skipped (ts : List Token) : Prop where
  noBrace : ∀ t ∈ ts, t.kind ≠ .symbol .closeBrace
  noStart : ∀ t ∈ ts.tail, resumes t.kind = false
  noSemicolon : ∀ t ∈ ts.dropLast, t.kind ≠ .symbol .semicolon

namespace Skipped

/-- Nothing is passed over. -/
lemma nil : Skipped [] :=
  ⟨List.forall_mem_nil _, List.forall_mem_nil _, List.forall_mem_nil _⟩

/-- One token is passed over. -/
lemma single {t : Token} (h : t.kind ≠ .symbol .closeBrace) : Skipped [t] :=
  ⟨List.forall_mem_singleton.2 h, List.forall_mem_nil _, List.forall_mem_nil _⟩

/-- A token is passed over before others that do not begin a statement. -/
lemma cons {t : Token} {ts : List Token} (h : Skipped ts) (hbrace : t.kind ≠ .symbol .closeBrace)
    (hsemicolon : t.kind ≠ .symbol .semicolon) (hnone : ∀ u ∈ ts, resumes u.kind = false) :
    Skipped (t :: ts) := by
  refine ⟨List.forall_mem_cons.2 ⟨hbrace, h.noBrace⟩, hnone, ?_⟩
  cases ts with
  | nil => exact List.forall_mem_nil _
  | cons u ts => exact List.forall_mem_cons.2 ⟨hsemicolon, h.noSemicolon⟩

end Skipped

/-- Skipping passes over tokens up to where reading can resume, and reports nothing.  If some were
passed over before, none of them begins a statement. -/
lemma consumes_resume (faults : ErrorList Fault) :
    ∀ (moved : Bool) (previous : Span) (ts : List Token),
      ∃ us, (⟨ts, previous, faults⟩ : Cursor).Consumes (resume faults moved previous ts) us [] ∧
        Skipped us ∧ (moved = true → ∀ t ∈ us, resumes t.kind = false)
  | _, _, [] => ⟨[], .refl _, .nil, fun _ => List.forall_mem_nil _⟩
  | moved, previous, t :: rest => by
    obtain ⟨us, hrest, hskipped, hnone⟩ := consumes_resume faults true t.span rest
    have hadvance (h : t.kind ≠ .endOfFile) :
        (⟨t :: rest, previous, faults⟩ : Cursor).Consumes ⟨rest, t.span, faults⟩ [t] [] :=
      .advance (Bool.not_eq_true _ ▸ mt TokenKind.isEnd_iff.1 h)
    unfold resume
    split
    · exact ⟨[], .refl _, .nil, fun _ => List.forall_mem_nil _⟩
    · next hkind =>
      refine ⟨[t], hadvance (by simp [hkind]), .single (by simp [hkind]), fun _ => ?_⟩
      simp [hkind, resumes]
    · exact ⟨[], .refl _, .nil, fun _ => List.forall_mem_nil _⟩
    · next hend hsemicolon hbrace =>
      split
      · exact ⟨[], .refl _, .nil, fun _ => List.forall_mem_nil _⟩
      · next hgoes =>
        refine ⟨t :: us, (hadvance hend).trans hrest,
          hskipped.cons hbrace hsemicolon (hnone rfl), ?_⟩
        rintro rfl
        exact List.forall_mem_cons.2 ⟨by simpa using hgoes, hnone rfl⟩

/-- Skipping the rest of a statement. -/
lemma consumes_synchronize (c : Cursor) :
    ∃ us, c.Consumes c.synchronize us [] ∧ Skipped us := by
  obtain ⟨us, hread, hskipped, -⟩ := consumes_resume c.faults false c.previous c.rest
  exact ⟨us, hread, hskipped⟩

/-- Skipping reports nothing. -/
@[simp] lemma faults_synchronize (c : Cursor) : c.synchronize.faults = c.faults := by
  obtain ⟨us, hread, -⟩ := c.consumes_synchronize
  exact hread.faults

/-! ### Going on -/

/-- The second cursor stands no earlier than the first, and no report was taken back. -/
structure Onward (c c' : Cursor) : Prop where
  suffix : c'.rest <:+ c.rest
  total_le : c.faults.total ≤ c'.faults.total

/-- Reading tokens goes on. -/
lemma Consumes.onward {c c' : Cursor} {ts : List Token} {fs : List Fault}
    (h : c.Consumes c' ts fs) : c.Onward c' :=
  ⟨⟨ts, h.rest.symm⟩, h.total_eq ▸ Nat.le_add_right _ _⟩

namespace Onward

/-- Standing still. -/
lemma refl (c : Cursor) : c.Onward c := ⟨List.suffix_rfl, Nat.le_refl _⟩

/-- Going on and on. -/
lemma trans {c c' c'' : Cursor} (h : c.Onward c') (h' : c'.Onward c'') : c.Onward c'' :=
  ⟨h'.suffix.trans h.suffix, Nat.le_trans h.total_le h'.total_le⟩

/-- No more tokens are left than there were. -/
lemma length_le {c c' : Cursor} (h : c.Onward c') : c'.rest.length ≤ c.rest.length :=
  h.suffix.length_le

/-- Moving past the next token. -/
lemma advance (c : Cursor) : c.Onward c.advance := by
  rcases c with ⟨_ | ⟨t, rest⟩, previous, faults⟩
  · exact .refl _
  · exact ⟨List.suffix_cons t rest, Nat.le_refl _⟩

/-- Reporting a fault. -/
lemma report (c : Cursor) (e : SyntaxError) (span : Span) : c.Onward (c.report e span) :=
  (Consumes.report c e span).onward

/-- Skipping goes on. -/
lemma resume (faults : ErrorList Fault) (moved : Bool) (previous : Span) (ts : List Token) :
    (Cursor.resume faults moved previous ts).rest <:+ ts := by
  obtain ⟨us, hread, -⟩ := consumes_resume faults moved previous ts
  exact ⟨us, hread.rest.symm⟩

/-- Skipping the rest of a statement. -/
lemma synchronize (c : Cursor) : c.Onward c.synchronize := by
  obtain ⟨us, hread, -⟩ := c.consumes_synchronize
  exact hread.onward

end Onward

/-- After a statement that could not be read and what is skipped of it, tokens were read. -/
lemma length_synchronize_lt {c c₁ : Cursor} (h : c.Onward c₁) (hend : c.atEnd = false)
    (hbrace : c.atSymbol .closeBrace = false) :
    c₁.synchronize.rest.length < c.rest.length := by
  rcases Nat.lt_or_eq_of_le h.length_le with hlt | heq
  · exact Nat.lt_of_le_of_lt (Onward.synchronize c₁).length_le hlt
  · -- nothing was read of the statement, so its first token is skipped
    have hrest := h.suffix.eq_of_length heq
    unfold synchronize
    rw [hrest]
    rcases c with ⟨_ | ⟨t, rest⟩, previous, faults⟩
    · cases hend
    · have htail := (Onward.resume c₁.faults true t.span rest).length_le
      dsimp only
      unfold resume
      split
      · next hkind => simp [atEnd, kind, peek, hkind, TokenKind.isEnd] at hend
      · exact Nat.lt_succ_self _
      · next hkind => simp [atSymbol, kind, peek, hkind] at hbrace
      · exact Nat.lt_succ_of_le htail

/-! ### Beginning and end -/

/-- The tokens that are read: those given, without and then with a mark of the end. -/
lemma kinds_ofTokens {tokens : List Token}
    (hend : ∀ t ∈ tokens.dropLast, t.kind ≠ .endOfFile) :
    (ofTokens tokens).kinds =
      (tokens.map (·.kind)).filter (fun k => !k.isEnd) ++ [.endOfFile] := by
  unfold ofTokens Cursor.kinds
  cases hlast : tokens.getLast? with
  | none =>
    obtain rfl : tokens = [] := List.getLast?_eq_none_iff.1 hlast
    rfl
  | some t =>
    obtain ⟨ts, rfl⟩ := List.getLast?_eq_some_iff.1 hlast
    rw [List.dropLast_concat] at hend
    have hkeep : (ts.map (·.kind)).filter (fun k => !k.isEnd) = ts.map (·.kind) := by
      refine List.filter_eq_self.2 fun k hk => ?_
      obtain ⟨t, ht, rfl⟩ := List.mem_map.1 hk
      simpa [← TokenKind.isEnd_iff] using hend t ht
    cases hkind : t.kind.isEnd with
    | true =>
      have ht := TokenKind.isEnd_iff.1 hkind
      simp [hkeep, ht, TokenKind.isEnd_iff]
    | false => simp [hkeep, hkind]

/-- What is left when the tokens are at an end. -/
lemma kinds_of_atEnd {c : Cursor} (h : c.atEnd) :
    c.kinds = [] ∨ ∃ ts, c.kinds = .endOfFile :: ts := by
  rcases c with ⟨_ | ⟨t, rest⟩, previous, faults⟩
  · exact .inl rfl
  · have hkind : t.kind = .endOfFile := atEnd_iff.1 h
    exact .inr ⟨rest.map (·.kind), by simp [Cursor.kinds, hkind]⟩

end Cursor

end Lugha
