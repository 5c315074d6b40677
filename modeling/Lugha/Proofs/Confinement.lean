import Lugha.Proofs.Walk

/-!
# Where the parser reports faults

The parser takes its spans from the tokens: from a single one, from the one that was read last, or
by merging.  So a property of spans that merging keeps, and that the spans of all tokens have, is a
property of all spans that the parser makes, and of those at which it reports faults.

So such spans can be watched.  `Cursor.Confined` says that a cursor knows of no others, and the ones
with the property are those that are in place and at which a fault may be reported.
-/

namespace Lugha

/-- A property of spans that merging keeps. -/
def Span.MergeClosed (P : Span → Prop) : Prop := ∀ s t, P s → P t → P (s.merge t)

/-! ### Error lists -/

/-- A report keeps what all errors have in common. -/
lemma ErrorList.forall_push {ε : Type} {P : ε → Prop} {es : ErrorList ε} {e : ε}
    (h : ∀ x ∈ es.kept, P x) (he : P e) : ∀ x ∈ (es.push e).kept, P x := by
  unfold push
  dsimp only
  split
  · exact List.forall_mem_append.2 ⟨h, List.forall_mem_singleton.2 he⟩
  · exact h

/-- Reports keep what all errors have in common. -/
lemma ErrorList.forall_foldl_push {ε : Type} {P : ε → Prop} {es : ErrorList ε} {added : List ε}
    (h : ∀ x ∈ es.kept, P x) (hadded : ∀ x ∈ added, P x) :
    ∀ x ∈ (added.foldl push es).kept, P x := by
  induction added generalizing es with
  | nil => exact h
  | cons e added ih =>
    obtain ⟨he, hadded⟩ := List.forall_mem_cons.1 hadded
    exact ih (forall_push h he) hadded

/-- What the errors of two lists have in common is common to those of both together. -/
lemma ErrorList.forall_append {ε : Type} {P : ε → Prop} {es fs : ErrorList ε}
    (h : ∀ x ∈ es.kept, P x) (h' : ∀ x ∈ fs.kept, P x) : ∀ x ∈ (es.append fs).kept, P x :=
  forall_foldl_push h h'

/-! ### Cursors -/

/-- All spans that a cursor knows of have a property: those of the tokens that are left, and that of
the token read last. -/
structure Cursor.Confined (P : Span → Prop) (c : Cursor) : Prop where
  rest : ∀ t ∈ c.rest, P t.span
  previous : P c.previous

namespace Cursor.Confined

variable {P : Span → Prop} {c c' : Cursor} {ts : List Token} {fs : List Fault}

/-- Where the next token stands. -/
lemma span (h : c.Confined P) : P c.span := by
  rcases c with ⟨_ | ⟨t, rest⟩, previous, faults⟩
  · exact h.previous
  · exact h.rest t List.mem_cons_self

/-- Where a token stands that was read. -/
lemma token {t : Token} (h : c.Confined P) (hread : c.Consumes c' ts fs) (ht : t ∈ ts) :
    P t.span :=
  h.rest t (hread.rest ▸ List.mem_append_left _ ht)

/-- Reading tokens. -/
lemma consumes (h : c.Confined P) (hread : c.Consumes c' ts fs) : c'.Confined P := by
  refine ⟨fun t ht => h.rest t (hread.rest ▸ List.mem_append_right _ ht), ?_⟩
  rw [hread.previous]
  rcases List.eq_nil_or_concat' ts with rfl | ⟨init, u, rfl⟩
  · exact h.previous
  · rw [List.foldl_append]
    exact h.token hread (List.mem_append_right _ List.mem_cons_self)

end Cursor.Confined

/-- Spans have a property. -/
def Placement.confined {P : Span → Prop} (hmerge : Span.MergeClosed P) : Placement where
  knows := Cursor.Confined P
  placed s _ := P s
  allowed := P
  knows_of_consumes := Cursor.Confined.consumes
  placed_token := Cursor.Confined.token
  placed_merge _ _ hs hs' _ _ := hmerge _ _ hs hs'
  allowed_span := Cursor.Confined.span
  allowed_of_placed := id

/-! ### Programs -/

/-- The faults of a list of tokens stand where its tokens stand, or are merged from such spans. -/
lemma forall_faults_parseTokens {P : Span → Prop} (hmerge : Span.MergeClosed P)
    (horigin : P (.point .origin)) {tokens : List Token} (h : ∀ t ∈ tokens, P t.span) :
    ∀ f ∈ (parseTokens tokens).2.kept, P f.span := by
  have hstart : (Cursor.ofTokens tokens).Confined P := by
    refine ⟨?_, horigin⟩
    unfold Cursor.ofTokens
    dsimp only
    split
    · exact List.forall_mem_singleton.2 horigin
    · next t ht =>
      split
      · exact h
      · exact List.forall_mem_append.2
          ⟨h, List.forall_mem_singleton.2 (h t (List.mem_of_getLast? ht))⟩
  obtain ⟨ts, fs, hread, hallowed, -⟩ := Parser.derived_topLevel
    (Parser.yields_expression (Placement.confined hmerge).watch_closed maxNesting)
    (Cursor.ofTokens tokens).rest.length hstart
  have hfaults : (parseTokens tokens).2 = fs.foldl ErrorList.push .empty := hread.faults
  rw [hfaults]
  exact ErrorList.forall_foldl_push (List.forall_mem_nil _) hallowed

end Lugha
