import Lugha.Proofs.Cursors
import Lugha.Proofs.Spans

/-!
# Two runs of the parser abreast

The parser is run twice, on two lists of tokens that begin alike.  As long as both runs stand
within the common beginning they do the same: they see tokens of the same kinds, build trees
that differ in their spans at most, and report the same faults.  A `Comparison` says what of a
span is seen, how the two lists go on after the common beginning, which faults correspond, and
when the first run has gone so far that the two are no longer compared.

`Comparison.Parallel` says of two parsers that they keep two cursors abreast, where no more than
given numbers of tokens are left.  There is one lemma for each way in which parsers are put
together.  Two further facts are carried along that hold of every run: no token is read twice, no
report is taken back, and a parser that promises so has read at least one token when it succeeds.
The first keeps a run that is no longer compared from coming back.  The last bounds the rounds of
loops: as many rounds as tokens are enough, and after a token one less of each.
-/

namespace Lugha

/-! ### Comparisons -/

/-- Where nothing is seen of the faults, there are none. -/
lemma ErrorList.eq_empty_of_map {ε δ : Type} {f : ε → δ} {es : ErrorList ε}
    (h : ErrorList.empty = es.map f) : es = .empty := by
  rcases es with ⟨kept, total⟩
  simp only [ErrorList.empty, ErrorList.map, ErrorList.mk.injEq] at h
  obtain ⟨hkept, rfl⟩ := h
  rw [List.map_eq_nil_iff.1 hkept.symm]
  rfl

/-- What is compared in two runs of the parser, and how long. -/
structure Comparison where
  /-- what is seen of a span -/
  view : Span → Span
  /-- the tokens after the common beginning, for the first run -/
  tail : List Token
  /-- the tokens after the common beginning, for the second run -/
  tail' : List Token
  /-- which faults correspond -/
  faults : ErrorList Fault → ErrorList Fault → Prop
  /-- whether a first run that has come this far is no longer compared -/
  lost : Cursor → Prop
  view_merge : ∀ {a a' b b' : Span}, view a = view a' → view b = view b' →
    view (a.merge b) = view (a'.merge b')
  push : ∀ {es es' : ErrorList Fault} {s s' : Span} (e : SyntaxError), faults es es' →
    view s = view s' → faults (es.push ⟨e, s⟩) (es'.push ⟨e, s'⟩)
  isFull : ∀ {c c' : Cursor}, faults c.faults c'.faults → ¬ lost c →
    c.faults.isFull = c'.faults.isFull
  lost_of_length_le : ∀ {c : Cursor}, c.rest.length ≤ tail.length → lost c
  lost_of_onward : ∀ {c c' : Cursor}, c.Onward c' → lost c → lost c'

namespace Comparison

variable {S : Comparison}

/-- The tokens of a common beginning with what follows it in either run.  The last common token
is no name, since whether a name is assigned to is seen from the token after it. -/
inductive Rest (S : Comparison) : List Token → List Token → Prop
  | tail : Rest S S.tail S.tail'
  | cons {t t' : Token} {ts ts' : List Token} (hkind : t.kind = t'.kind)
      (hspan : S.view t.span = S.view t'.span)
      (hname : ∀ n, t.kind = .name n → S.tail.length < ts.length) (h : Rest S ts ts') :
      Rest S (t :: ts) (t' :: ts')

/-- A semicolon stands ahead, before the end of the common beginning. -/
def SemicolonAhead (S : Comparison) (ts : List Token) : Prop :=
  ∃ us t vs, ts = us ++ t :: vs ∧ t.kind = .symbol .semicolon ∧ S.tail.length ≤ vs.length

/-- If the next token is no semicolon, one stands ahead of the others. -/
lemma SemicolonAhead.of_cons {t : Token} {ts : List Token} (h : S.SemicolonAhead (t :: ts))
    (ht : t.kind ≠ .symbol .semicolon) : S.SemicolonAhead ts := by
  obtain ⟨us, u, vs, heq, hu, hlength⟩ := h
  cases us with
  | nil =>
    obtain ⟨rfl, -⟩ := List.cons.inj heq
    exact absurd hu ht
  | cons _ us => exact ⟨us, u, vs, (List.cons.inj heq).2, hu, hlength⟩

/-- Two cursors at the same place of the common beginning.  The spans of the tokens read last
need to correspond only if `moved` holds. -/
structure Abreast (S : Comparison) (moved : Prop) (c c' : Cursor) : Prop where
  rest : S.Rest c.rest c'.rest
  previous : moved → S.view c.previous = S.view c'.previous
  faults : S.faults c.faults c'.faults

/-- How much is left of the tokens of the two runs differs by what follows the common ones. -/
lemma Rest.length_eq {ts ts' : List Token} (h : S.Rest ts ts') :
    ts.length + S.tail'.length = ts'.length + S.tail.length := by
  induction h with
  | tail => exact Nat.add_comm _ _
  | cons _ _ _ _ ih =>
    simp only [List.length_cons]
    omega

namespace Abreast

variable {moved : Prop} {c c' : Cursor}

/-- Less may be known of the tokens read last. -/
lemma mono {moved' : Prop} (h : S.Abreast moved c c') (hmoved : moved' → moved) :
    S.Abreast moved' c c' :=
  ⟨h.rest, fun hm => h.previous (hmoved hm), h.faults⟩

/-- Before the end of the common beginning both cursors have a next token. -/
lemma next (h : S.Abreast moved c c') (hlost : ¬ S.lost c) :
    ∃ t t' ts ts', c.rest = t :: ts ∧ c'.rest = t' :: ts' ∧ t.kind = t'.kind ∧
      S.view t.span = S.view t'.span ∧ S.Rest ts ts' ∧
      ∀ n, t.kind = .name n → S.tail.length < ts.length := by
  obtain ⟨hrest, -, -⟩ := h
  generalize hts : c.rest = ts at hrest
  generalize hts' : c'.rest = ts' at hrest
  cases hrest with
  | tail => exact absurd (S.lost_of_length_le (Nat.le_of_eq (congrArg _ hts))) hlost
  | cons hkind hspan hname hrest =>
    exact ⟨_, _, _, _, rfl, rfl, hkind, hspan, hrest, hname⟩

/-- Before the end of the common beginning tokens are left. -/
lemma ne_nil (h : S.Abreast moved c c') (hlost : ¬ S.lost c) : c.rest ≠ [] := by
  obtain ⟨t, -, ts, -, hts, -⟩ := h.next hlost
  rw [hts]
  exact List.cons_ne_nil t ts

/-- The next tokens are of the same kind. -/
lemma kind_eq (h : S.Abreast moved c c') (hlost : ¬ S.lost c) : c'.kind = c.kind := by
  obtain ⟨t, t', ts, ts', hts, hts', hkind, -⟩ := h.next hlost
  simp [Cursor.kind, Cursor.peek, hts, hts', hkind]

/-- The next tokens stand at the same place, as far as that is seen. -/
lemma span_eq (h : S.Abreast moved c c') (hlost : ¬ S.lost c) :
    S.view c.span = S.view c'.span := by
  obtain ⟨t, t', ts, ts', hts, hts', -, hspan, -⟩ := h.next hlost
  simp [Cursor.span, Cursor.peek, hts, hts', hspan]

/-- The same signs stand next. -/
lemma atSymbol_eq (h : S.Abreast moved c c') (hlost : ¬ S.lost c) (s : Symbol) :
    c'.atSymbol s = c.atSymbol s := by
  unfold Cursor.atSymbol
  rw [h.kind_eq hlost]

/-- The same words stand next. -/
lemma atKeyword_eq (h : S.Abreast moved c c') (hlost : ¬ S.lost c) (k : Keyword) :
    c'.atKeyword k = c.atKeyword k := by
  unfold Cursor.atKeyword
  rw [h.kind_eq hlost]

/-- Both runs are at an end of the text together. -/
lemma atEnd_eq (h : S.Abreast moved c c') (hlost : ¬ S.lost c) : c'.atEnd = c.atEnd := by
  unfold Cursor.atEnd
  rw [h.kind_eq hlost]

/-- Moving both cursors. -/
lemma advance (h : S.Abreast moved c c') (hlost : ¬ S.lost c) :
    S.Abreast True c.advance c'.advance := by
  obtain ⟨t, t', ts, ts', hts, hts', -, hspan, hrest, -⟩ := h.next hlost
  have hc : c.advance = { c with rest := ts, previous := t.span } := by
    simp [Cursor.advance, hts]
  have hc' : c'.advance = { c' with rest := ts', previous := t'.span } := by
    simp [Cursor.advance, hts']
  rw [hc, hc']
  exact ⟨hrest, fun _ => hspan, h.faults⟩

/-- Reporting the same fault in both runs. -/
lemma report (h : S.Abreast moved c c') (e : SyntaxError) {s s' : Span}
    (hspan : S.view s = S.view s') : S.Abreast moved (c.report e s) (c'.report e s') :=
  ⟨h.rest, h.previous, S.push e h.faults hspan⟩

end Abreast

/-! ### Results of parsers -/

variable {α β γ δ : Type}

/-- The results of two runs of a parser: they correspond, or the runs are no longer compared. -/
inductive Outcome (S : Comparison) (moved : Prop) (v : α → γ) :
    Option α × Cursor → Option α × Cursor → Prop
  | ok {a a' : α} {c c' : Cursor} (ha : v a = v a') (h : S.Abreast moved c c') :
      Outcome S moved v (some a, c) (some a', c')
  | fail {c c' : Cursor} (h : S.Abreast False c c') : Outcome S moved v (none, c) (none, c')
  | lost {x x' : Option α × Cursor} (h : S.lost x.2) : Outcome S moved v x x'

/-- Nothing has to be shown of a run that is no longer compared. -/
lemma Outcome.of_onward {moved : Prop} {v : α → γ} {c : Cursor} {x x' : Option α × Cursor}
    (honward : c.Onward x.2) (h : ¬ S.lost c → S.Outcome moved v x x') :
    S.Outcome moved v x x' := by
  by_cases hlost : S.lost c
  · exact .lost (S.lost_of_onward honward hlost)
  · exact h hlost

/-- Less may be known of the results. -/
lemma Outcome.mono {moved moved' : Prop} {v : α → γ} {u : α → δ} {x x' : Option α × Cursor}
    (h : S.Outcome moved v x x') (hmoved : moved' → moved)
    (hu : ∀ a a', v a = v a' → u a = u a') : S.Outcome moved' u x x' := by
  cases h with
  | ok ha h => exact .ok (hu _ _ ha) (h.mono hmoved)
  | fail h => exact .fail h
  | lost h => exact .lost h

/-- One parser after another, where the first one keeps the cursors abreast. -/
lemma Outcome.andThen {moved moved' : Prop} {v : α → γ} {w : β → δ} {p p' : Parser α}
    {f f' : α → Parser β} {c c' : Cursor} (hx : S.Outcome moved v (p c) (p' c'))
    (honward : ∀ (a : α) (c₁ : Cursor), c₁.Onward (f a c₁).2)
    (hf : ∀ {a a' c₁ c₁'}, p c = (some a, c₁) → v a = v a' → S.Abreast moved c₁ c₁' →
      S.Outcome moved' w (f a c₁) (f' a' c₁')) :
    S.Outcome moved' w (p.andThen f c) (p'.andThen f' c') := by
  unfold Parser.andThen
  generalize hy : p c = x at hx hf ⊢
  generalize p' c' = x' at hx ⊢
  cases hx with
  | ok ha h => exact hf rfl ha h
  | fail h => exact .fail h
  | @lost x x' h =>
    rcases x with ⟨_ | a, c₁⟩
    · exact .lost h
    · exact .lost (S.lost_of_onward (honward a c₁) h)

/-- How much fewer tokens are left after some were read is the same in both runs. -/
lemma Abreast.length_add_eq {moved moved' : Prop} {c c' c₁ c₁' : Cursor} (h : S.Abreast moved c c')
    (h₁ : S.Abreast moved' c₁ c₁') :
    c.rest.length + c₁'.rest.length = c'.rest.length + c₁.rest.length := by
  have hlength := h.rest.length_eq
  have hlength₁ := h₁.rest.length_eq
  omega

/-- One token less is left in the second run too. -/
lemma Abreast.length_le {moved moved' : Prop} {c c' c₁ c₁' : Cursor} {n n' : Nat}
    (h : S.Abreast moved c c') (h₁ : S.Abreast moved' c₁ c₁') (hn : c.rest.length ≤ n)
    (hn' : c'.rest.length ≤ n') (hshorter : c₁.rest.length < c.rest.length) :
    c₁.rest.length ≤ n - 1 ∧ c₁'.rest.length ≤ n' - 1 := by
  have hlength := h.length_add_eq h₁
  omega

/-- Where both cursors are within the common beginning, rounds are left for both runs. -/
lemma Abreast.rounds {moved : Prop} {c c' : Cursor} {n n' : Nat} (h : S.Abreast moved c c')
    (hlost : ¬ S.lost c) (hn : c.rest.length ≤ n) (hn' : c'.rest.length ≤ n') :
    ∃ m m', n = m + 1 ∧ n' = m' + 1 := by
  obtain ⟨t, t', ts, ts', hts, hts', -⟩ := h.next hlost
  rw [hts, List.length_cons] at hn
  rw [hts', List.length_cons] at hn'
  exact ⟨n - 1, n' - 1, by omega, by omega⟩

/-- Two parsers that keep cursors abreast and give results of which the same is seen, where no more
than `n` and `n'` tokens are left for them.  If `eats` is set, a success has read a token. -/
structure Parallel (S : Comparison) (n n' : Nat) (start : Prop) (eats : Bool) (v : α → γ)
    (p p' : Parser α) : Prop where
  onward : ∀ c : Cursor, c.Onward (p c).2
  shorter : eats → ∀ {c a c'}, c.rest.length ≤ n → p c = (some a, c') → c.rest ≠ [] →
    c'.rest.length < c.rest.length
  agree : ∀ {c c'}, S.Abreast start c c' → c.rest.length ≤ n → c'.rest.length ≤ n' →
    S.Outcome (eats ∨ start) v (p c) (p' c')

namespace Parallel

variable {n n' m m' : Nat} {start : Prop} {eats : Bool} {v : α → γ} {w : β → δ} {p p' : Parser α}

/-- Two parsers, compared where the runs still are. -/
lemma of_not_lost (honward : ∀ c : Cursor, c.Onward (p c).2)
    (hshorter : eats → ∀ {c a c'}, p c = (some a, c') → c.rest ≠ [] →
      c'.rest.length < c.rest.length)
    (hagree : ∀ {c c'}, S.Abreast start c c' → ¬ S.lost c →
      S.Outcome (eats ∨ start) v (p c) (p' c')) : S.Parallel n n' start eats v p p' where
  onward := honward
  shorter := fun heats _ _ _ _ => hshorter heats
  agree := fun h _ _ => .of_onward (honward _) (hagree h)

/-- Fewer tokens may be left. -/
lemma mono (h : S.Parallel n n' start eats v p p') (hm : m ≤ n) (hm' : m' ≤ n') :
    S.Parallel m m' start eats v p p' where
  onward := h.onward
  shorter := fun heats _ _ _ hc => h.shorter heats (Nat.le_trans hc hm)
  agree := fun h' hc hc' => h.agree h' (Nat.le_trans hc hm) (Nat.le_trans hc' hm')

/-- A parser that reads a token may stand anywhere. -/
lemma anywhere (h : S.Parallel n n' False true v p p') : S.Parallel n n' start true v p p' where
  onward := h.onward
  shorter := h.shorter
  agree := fun h' hc hc' => (h.agree (h'.mono False.elim) hc hc').mono (fun _ => .inl rfl)
    fun _ _ => id

/-- That a parser reads a token may be forgotten. -/
lemma forget (h : S.Parallel n n' True true v p p') : S.Parallel n n' True false v p p' where
  onward := h.onward
  shorter := fun heats => nomatch heats
  agree := fun h' hc hc' => (h.agree h' hc hc').mono (fun _ => .inl rfl) fun _ _ => id

/-- A result without moving. -/
lemma pure {a a' : α} (ha : v a = v a') :
    S.Parallel n n' start false v (Pure.pure a : Parser α) (Pure.pure a') where
  onward := fun c => .refl c
  shorter := fun h => nomatch h
  agree := fun h _ _ => .ok ha (h.mono fun hm => hm.elim (fun h => nomatch h) id)

/-- What is left after two parsers of which the first may read a token. -/
lemma onward_andThen {f : α → Parser β} (hp : ∀ c : Cursor, c.Onward (p c).2)
    (hf : ∀ (a : α) (c : Cursor), c.Onward (f a c).2) (c : Cursor) : c.Onward ((p >>= f) c).2 := by
  change c.Onward (p.andThen f c).2
  have hc := hp c
  unfold Parser.andThen
  generalize p c = x at hc
  rcases x with ⟨_ | a, c'⟩
  · exact hc
  · exact hc.trans (hf a c')

/-- A parser that reads a token, and another one after it, for which fewer tokens are left. -/
lemma andThen {f f' : α → Parser β} (hp : S.Parallel n n' start true v p p')
    (hf : ∀ a a', v a = v a' → S.Parallel (n - 1) (n' - 1) True false w (f a) (f' a')) :
    S.Parallel n n' start true w (p >>= f) (p' >>= f') where
  onward := onward_andThen hp.onward fun a => (hf a a rfl).onward
  shorter := by
    intro _ c b c'' hn hresult hne
    change p.andThen f c = (some b, c'') at hresult
    unfold Parser.andThen at hresult
    split at hresult
    · next a c' ha =>
      have hshorter := hp.shorter rfl hn ha hne
      have honward := ((hf a a rfl).onward c').length_le
      rw [hresult] at honward
      exact Nat.lt_of_le_of_lt honward hshorter
    · cases hresult
  agree := by
    intro c c' hc hn hn'
    refine .of_onward (onward_andThen hp.onward (fun a => (hf a a rfl).onward) c) fun hlost => ?_
    refine (hp.agree hc hn hn').andThen (fun a => (hf a a rfl).onward) fun hread ha h => ?_
    have hshorter := hp.shorter rfl hn hread (hc.ne_nil hlost)
    obtain ⟨hlength, hlength'⟩ := hc.length_le h hn hn' hshorter
    have hy := (hf _ _ ha).agree (h.mono fun _ => .inl rfl) hlength hlength'
    exact hy.mono (fun _ => .inr trivial) fun _ _ => id

/-- A parser that need not read a token, and another one after it. -/
lemma andThen_idle {f f' : α → Parser β} (hp : S.Parallel n n' start false v p p')
    (hf : ∀ a a', v a = v a' → S.Parallel n n' start eats w (f a) (f' a')) :
    S.Parallel n n' start eats w (p >>= f) (p' >>= f') where
  onward := onward_andThen hp.onward fun a => (hf a a rfl).onward
  shorter := by
    intro heats c b c'' hn hresult hne
    change p.andThen f c = (some b, c'') at hresult
    unfold Parser.andThen at hresult
    split at hresult
    · next a c' ha =>
      have hle := (hp.onward c).length_le
      rw [ha] at hle
      by_cases hnil : c'.rest = []
      · have honward := ((hf a a rfl).onward c').length_le
        rw [hresult, hnil] at honward
        exact Nat.lt_of_le_of_lt honward (List.length_pos_iff.2 hne)
      · have hshorter := (hf a a rfl).shorter heats (Nat.le_trans hle hn) hresult hnil
        exact Nat.lt_of_lt_of_le hshorter hle
    · cases hresult
  agree := by
    intro c c' hc hn hn'
    refine (hp.agree hc hn hn').andThen (fun a => (hf a a rfl).onward) fun hread ha h => ?_
    have hle := (hp.onward c).length_le
    rw [hread] at hle
    have hlength := hc.length_add_eq h
    exact (hf _ _ ha).agree (h.mono .inr) (Nat.le_trans hle hn) (by dsimp only at hle; omega)

/-! ### Rounds -/

/-- No round is left for the first run, but no token either. -/
lemma exhausted (honward : ∀ c : Cursor, c.Onward (p c).2) : S.Parallel 0 n' start eats v p p' where
  onward := honward
  shorter := fun _ _ _ _ hn _ hne => absurd (List.length_eq_zero_iff.1 (Nat.le_zero.1 hn)) hne
  agree := fun _ hn _ =>
    .lost (S.lost_of_onward (honward _) (S.lost_of_length_le (Nat.le_trans hn (Nat.zero_le _))))

/-- A round of the first run is compared with any number of rounds of the second one, since without
a round no token is left either. -/
lemma of_step {f : Nat → Parser α}
    (hstep : ∀ m', S.Parallel n (m' + 1) start eats v p (f (m' + 1))) (n' : Nat) :
    S.Parallel n n' start eats v p (f n') := by
  cases n' with
  | zero =>
    refine ⟨(hstep 0).onward, (hstep 0).shorter, fun h hn hn' => ?_⟩
    refine .of_onward ((hstep 0).onward _) fun hlost => ?_
    obtain ⟨-, m', -, hm'⟩ := h.rounds hlost hn hn'
    cases hm'
  | succ m' => exact hstep m'

/-- A parser that takes at most as many rounds as there are tokens. -/
lemma of_rounds {f f' : Nat → Parser α} (h : ∀ m m', S.Parallel m m' start eats v (f m) (f' m')) :
    S.Parallel n n' start eats v (fun c => f c.rest.length c) (fun c => f' c.rest.length c) where
  onward := fun c => (h c.rest.length 0).onward c
  shorter := fun heats c _ _ _ => (h c.rest.length 0).shorter heats (Nat.le_refl _)
  agree := fun h' _ _ => (h _ _).agree h' (Nat.le_refl _) (Nat.le_refl _)

end Parallel

/-! ### Single tokens -/

/-- What is seen of a token. -/
def token (S : Comparison) (t : Token) : TokenKind × Span := (t.kind, S.view t.span)

variable {n n' : Nat} {start : Prop}

/-- Reading the next token. -/
lemma parallel_next : S.Parallel n n' start true S.token Parser.next Parser.next := by
  refine .of_not_lost (fun c => .advance c) ?_ ?_
  · intro _ c a c' h hne
    cases h
    exact Cursor.length_advance_lt hne
  · intro c c' h hlost
    have htoken : S.token c.peek = S.token c'.peek :=
      Prod.ext (h.kind_eq hlost).symm (h.span_eq hlost)
    exact .ok htoken ((h.advance hlost).mono fun _ => trivial)

/-- Looking at what is the same for both cursors. -/
lemma parallel_look {g : Cursor → γ}
    (hg : ∀ {c c'}, S.Abreast start c c' → ¬ S.lost c → g c = g c') :
    S.Parallel n n' start false id (Parser.look g) (Parser.look g) := by
  refine .of_not_lost (fun c => .refl c) (fun h => nomatch h) ?_
  intro c c' h hlost
  exact .ok (hg h hlost) (h.mono fun hm => hm.elim (fun h => nomatch h) id)

/-- Looking at where the token read last stands. -/
lemma parallel_previous :
    S.Parallel n n' True false S.view (Parser.look (·.previous)) (Parser.look (·.previous)) :=
  .of_not_lost (fun c => .refl c) (fun h => nomatch h) fun h _ =>
    .ok (h.previous trivial) (h.mono fun _ => trivial)

/-- Reporting a fault and going on. -/
lemma parallel_warn (e : SyntaxError) {s s' : Span} (hspan : S.view s = S.view s') :
    S.Parallel n n' start false id (Parser.warn e s) (Parser.warn e s') where
  onward := fun c => .report c e s
  shorter := fun h => nomatch h
  agree := fun h _ _ => .ok rfl ((h.report e hspan).mono fun hm => hm.elim (fun h => nomatch h) id)

/-- Reporting a fault and failing. -/
lemma parallel_failAt {eats : Bool} {v : α → γ} (e : SyntaxError) {s s' : Span}
    (hspan : S.view s = S.view s') :
    S.Parallel n n' start eats v (Parser.failAt e s) (Parser.failAt e s') where
  onward := fun c => .report c e s
  shorter := by
    intro _ c a c' _ h
    cases h
  agree := fun h _ _ => .fail ((h.mono False.elim).report e hspan)

/-- Reporting a fault about the next token and failing. -/
lemma parallel_failHere {eats : Bool} {v : α → γ} (e : TokenKind → SyntaxError) :
    S.Parallel n n' start eats v (Parser.failHere e) (Parser.failHere e) := by
  refine .of_not_lost (fun c => .report c _ _) ?_ ?_
  · intro _ c a c' h
    cases h
  · intro c c' h hlost
    unfold Parser.failHere
    rw [h.kind_eq hlost]
    exact .fail ((h.mono False.elim).report _ (h.span_eq hlost))

/-- A choice that both runs make alike. -/
lemma parallel_ite {eats : Bool} {v : α → γ} {g : Cursor → Bool} {p p' q q' : Parser α}
    (hg : ∀ {c c'}, S.Abreast start c c' → ¬ S.lost c → g c' = g c)
    (hp : S.Parallel n n' start eats v p p') (hq : S.Parallel n n' start eats v q q') :
    S.Parallel n n' start eats v (fun c => if g c then p c else q c)
      (fun c => if g c then p' c else q' c) := by
  have honward (c : Cursor) : c.Onward (if g c then p c else q c).2 := by
    split
    · exact hp.onward c
    · exact hq.onward c
  refine ⟨honward, ?_, ?_⟩
  · intro heats c a c' hn h hne
    change (if g c then p c else q c) = _ at h
    split at h
    · exact hp.shorter heats hn h hne
    · exact hq.shorter heats hn h hne
  · intro c c' h hn hn'
    refine .of_onward (honward c) fun hlost => ?_
    rw [hg h hlost]
    split
    · exact hp.agree h hn hn'
    · exact hq.agree h hn hn'

/-- A sign that may stand here. -/
lemma parallel_eat (s : Symbol) :
    S.Parallel n n' start false id (Parser.eat s) (Parser.eat s) := by
  refine .of_not_lost ?_ (fun h => nomatch h) ?_
  · intro c
    unfold Parser.eat
    split
    · exact .advance c
    · exact .refl c
  · intro c c' h hlost
    unfold Parser.eat
    rw [h.atSymbol_eq hlost]
    split
    · exact .ok rfl ((h.advance hlost).mono fun _ => trivial)
    · exact .ok rfl (h.mono fun hm => hm.elim (fun h => nomatch h) id)

/-- A sign that has to stand here. -/
lemma parallel_expect (s : Symbol) :
    S.Parallel n n' start true S.token (Parser.expect s) (Parser.expect s) :=
  parallel_ite (fun h hlost => h.atSymbol_eq hlost s) parallel_next (parallel_failHere _)

/-- A bracket that has to be closed here. -/
lemma parallel_close (s : Symbol) {opened opened' : Span}
    (hopened : S.view opened = S.view opened') :
    S.Parallel n n' start true S.token (Parser.close s opened) (Parser.close s opened') :=
  parallel_ite (fun h hlost => h.atEnd_eq hlost) (parallel_failAt _ hopened) (parallel_expect s)

/-! ### Parsers that look before they read -/

/-- Parsers that do what others do, depending on the next token. -/
lemma parallel_of_kinds {eats : Bool} {v : α → γ} {p p' : Parser α}
    (h : ∀ k, ∃ q q' : Parser α, (∀ c : Cursor, c.kind = k → p c = q c ∧ p' c = q' c) ∧
      S.Parallel n n' start eats v q q') : S.Parallel n n' start eats v p p' := by
  have honward (c : Cursor) : c.Onward (p c).2 := by
    obtain ⟨q, q', hq, hparallel⟩ := h c.kind
    rw [(hq c rfl).1]
    exact hparallel.onward c
  refine ⟨honward, ?_, ?_⟩
  · intro heats c a c' hn hresult hne
    obtain ⟨q, q', hq, hparallel⟩ := h c.kind
    rw [(hq c rfl).1] at hresult
    exact hparallel.shorter heats hn hresult hne
  · intro c c' hc hn hn'
    refine .of_onward (honward c) fun hlost => ?_
    obtain ⟨q, q', hq, hparallel⟩ := h c.kind
    rw [(hq c rfl).1, (hq c' (hc.kind_eq hlost)).2]
    exact hparallel.agree hc hn hn'

/-- A parser that does what another one does, depending on the next token. -/
lemma parallel_of_kind {eats : Bool} {v : α → γ} {p : Parser α}
    (h : ∀ k, ∃ q : Parser α, (∀ c : Cursor, c.kind = k → p c = q c) ∧
      S.Parallel n n' start eats v q q) : S.Parallel n n' start eats v p p := by
  refine parallel_of_kinds fun k => ?_
  obtain ⟨q, hq, hparallel⟩ := h k
  exact ⟨q, q, fun c hc => ⟨hq c hc, hq c hc⟩, hparallel⟩

/-- A parser that keeps where the next token stands. -/
lemma parallel_of_span {eats : Bool} {v : α → γ} {f f' : Span → Parser α}
    (h : ∀ s s', S.view s = S.view s' → S.Parallel n n' start eats v (f s) (f' s')) :
    S.Parallel n n' start eats v (fun c => f c.span c) (fun c => f' c.span c) where
  onward := fun c => (h c.span c.span rfl).onward c
  shorter := fun heats c _ _ => (h c.span c.span rfl).shorter heats
  agree := fun hc hn hn' => .of_onward ((h _ _ rfl).onward _) fun hlost =>
    (h _ _ (hc.span_eq hlost)).agree hc hn hn'

/-- A result that is made of the next token alone. -/
lemma parallel_leaf {v : α → γ} {g : Span → α}
    (hg : ∀ s s', S.view s = S.view s' → v (g s) = v (g s')) :
    S.Parallel n n' start true v (fun c => (some (g c.span), c.advance))
      (fun c => (some (g c.span), c.advance)) := by
  refine .of_not_lost (fun c => .advance c) ?_ ?_
  · intro _ c a c' h hne
    cases h
    exact Cursor.length_advance_lt hne
  · intro c c' h hlost
    exact .ok (hg _ _ (h.span_eq hlost)) ((h.advance hlost).mono fun _ => trivial)

/-- A name. -/
lemma parallel_ident :
    S.Parallel n n' start true (Ident.mapSpans S.view) Parser.ident Parser.ident := by
  refine parallel_of_kind fun k => ?_
  cases k with
  | name x =>
    refine ⟨_, fun c hc => by rw [Parser.ident, hc], parallel_leaf fun s s' hs => ?_⟩
    simp only [Ident.mapSpans, hs]
  | _ => exact ⟨_, fun c hc => by rw [Parser.ident, hc], parallel_failHere _⟩

/-- Tokens of which the same is seen, and which do not end with a name, are a common beginning. -/
lemma rest_append {ts ts' : List Token} (h : ts.map S.token = ts'.map S.token)
    (hlast : ∀ n, (ts.map (·.kind)).getLast? ≠ some (.name n)) :
    S.Rest (ts ++ S.tail) (ts' ++ S.tail') := by
  induction ts generalizing ts' with
  | nil =>
    obtain rfl : ts' = [] := List.map_eq_nil_iff.1 h.symm
    exact .tail
  | cons t ts ih =>
    obtain ⟨t', us, rfl, ht, hus⟩ := List.map_eq_cons_iff.1 h.symm
    obtain ⟨hkind, hspan⟩ := Prod.mk.inj ht.symm
    cases ts with
    | nil =>
      obtain rfl : us = [] := List.map_eq_nil_iff.1 hus
      refine .cons hkind hspan (fun n hn => ?_) .tail
      exact absurd (congrArg some hn) (hlast n)
    | cons u ts =>
      have hlength : S.tail.length < (u :: ts ++ S.tail).length := by
        simp only [List.length_append, List.length_cons]
        omega
      exact .cons hkind hspan (fun _ _ => hlength) (ih hus.symm hlast)

/-! ### Comparing without places -/

/-- Two runs on tokens of the same kinds, of which the places are not seen, as long as the first
one has not passed the common beginning. -/
def placeless (tail tail' : List Token) : Comparison where
  view := .forget
  tail := tail
  tail' := tail'
  faults es es' := es.map Fault.error = es'.map Fault.error
  lost c := c.rest.length ≤ tail.length
  view_merge _ _ := rfl
  push e h _ := by rw [ErrorList.map_push, ErrorList.map_push, h]
  isFull h _ := by
    have htotal := congrArg ErrorList.total h
    simp only [ErrorList.map] at htotal
    simp only [ErrorList.isFull, htotal]
  lost_of_length_le := id
  lost_of_onward h hlost := Nat.le_trans h.length_le hlost

/-- Tokens of the same kinds that do not end with a name are a common beginning. -/
lemma rest_placeless {tail tail' : List Token} {ts ts' : List Token}
    (h : ts.map (·.kind) = ts'.map (·.kind))
    (hlast : ∀ n, (ts.map (·.kind)).getLast? ≠ some (.name n)) :
    (placeless tail tail').Rest (ts ++ tail) (ts' ++ tail') := by
  have htokens : ts.map (placeless tail tail').token = ts'.map (placeless tail tail').token := by
    have hpairs := congrArg (List.map fun k => (k, Span.synthetic)) h
    rwa [List.map_map, List.map_map] at hpairs
  exact rest_append htokens hlast

/-- Tokens of the same kinds up to a mark of the end. -/
lemma rest_of_ended {ks : List TokenKind} {ts ts' : List Token}
    (h : ts.map (·.kind) = ks ++ [.endOfFile]) (h' : ts'.map (·.kind) = ks ++ [.endOfFile]) :
    (placeless [] []).Rest ts ts' := by
  have hlast (n : String) : (ts.map (·.kind)).getLast? ≠ some (.name n) := by
    rw [h]
    simp
  have hrest : (placeless [] []).Rest (ts ++ []) (ts' ++ []) :=
    rest_placeless (h.trans h'.symm) hlast
  rwa [List.append_nil, List.append_nil] at hrest

end Comparison

end Lugha
