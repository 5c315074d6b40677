import Lugha.Proofs.IndexedParser
import Lugha.Proofs.Walk

/-!
# The parser goes on

The parser that moves a cursor and the one that looks tokens up by their places read the same
programs from all lists of tokens.  `Stands` says that a cursor and a reading have come equally far,
and `Follows` that a parser by places ends as one with a cursor does as soon as it has fuel enough.
There is one lemma for each step and one for each parser of the grammar, and each of them ends where
both have come equally far again.  The parser by places is a program of its own, with loops of its
own, so the two have to be gone through side by side.  What is needed of the cursor alone, that it
moves on over statements and argument lists, is known from what every run yields.

What the parser by places notes on its way is carried along.  The tokens that it has moved past are
those before its place, each of them once and in order, and none is a mark of the end; every round
of a loop over statements has moved on; every parser was left at the depth at which it was entered.
A round moves on because a statement that is read has a token, and because skipping moves on from
where a statement that cannot be read begins, unless there is a brace or the end; but there the loop
does not try to read a statement.
-/

namespace Lugha

/-- The token that a mark says was read, with its place. -/
def Mark.passed? : Mark → Option (Token × Nat)
  | passed t i => some (t, i)
  | _ => none

/-- The marks of a reading that has come to a place: it has read the tokens before this place, each
once and in order and no mark of the end, its rounds have moved on, and its parsers were left at the
depths at which they were entered. -/
structure Fair (ts : List Token) (place : Nat) (marks : List Mark) : Prop where
  passed : marks.filterMap Mark.passed? = (ts.take place).zipIdx
  unended : ∀ t i, .passed t i ∈ marks → t.kind ≠ .endOfFile
  forward : ∀ a b, .round a b ∈ marks → a < b
  balanced : ∀ a b, .left a b ∈ marks → a.place ≤ b.place ∧ a.depth = b.depth

namespace Fair

variable {ts : List Token} {place : Nat} {marks : List Mark}

/-- Nothing is noted at the start. -/
lemma start (ts : List Token) : Fair ts 0 [] where
  passed := rfl
  unended _ _ h := nomatch h
  forward _ _ h := nomatch h
  balanced _ _ h := nomatch h

/-- A token that is read. -/
lemma pass (h : Fair ts place marks) {t : Token} (ht : ts[place]? = some t)
    (hend : t.kind ≠ .endOfFile) : Fair ts (place + 1) (marks ++ [.passed t place]) where
  passed := by
    have hlength : (ts.take place).length = place :=
      List.length_take_of_le (Nat.le_of_lt (List.getElem?_eq_some_iff.1 ht).1)
    rw [List.filterMap_append, h.passed, List.take_add_one, ht, List.zipIdx_append, hlength,
      Nat.zero_add]
    rfl
  unended t' i hmem := by
    rcases List.mem_append.1 hmem with hmem | hmem
    · exact h.unended t' i hmem
    · cases List.mem_singleton.1 hmem
      exact hend
  forward a b hmem := h.forward a b (by simpa using hmem)
  balanced a b hmem := h.balanced a b (by simpa using hmem)

/-- A round that has moved on. -/
lemma round (h : Fair ts place marks) {before after : Nat} (hlt : before < after) :
    Fair ts place (marks ++ [.round before after]) where
  passed := by rw [List.filterMap_append, h.passed]; exact List.append_nil _
  unended t i hmem := h.unended t i (by simpa using hmem)
  forward a b hmem := by
    rcases List.mem_append.1 hmem with hmem | hmem
    · exact h.forward a b hmem
    · cases List.mem_singleton.1 hmem
      exact hlt
  balanced a b hmem := h.balanced a b (by simpa using hmem)

/-- A parser that is left as it was entered. -/
lemma left (h : Fair ts place marks) {entry exit : Spot} (hplace : entry.place ≤ exit.place)
    (hdepth : entry.depth = exit.depth) : Fair ts place (marks ++ [.left entry exit]) where
  passed := by rw [List.filterMap_append, h.passed]; exact List.append_nil _
  unended t i hmem := h.unended t i (by simpa using hmem)
  forward a b hmem := h.forward a b (by simpa using hmem)
  balanced a b hmem := by
    rcases List.mem_append.1 hmem with hmem | hmem
    · exact h.balanced a b hmem
    · cases List.mem_singleton.1 hmem
      exact ⟨hplace, hdepth⟩

end Fair

/-! ### Equally far -/

/-- A cursor and a reading of the same tokens that have come equally far, at a given depth. -/
structure Stands (ts : List Token) (depth : Nat) (c : Cursor) (s : Reading) : Prop where
  rest : c.rest = ts.drop s.place
  inside : s.place < ts.length
  ended : ∀ t, ts[ts.length - 1]? = some t → t.kind = .endOfFile
  previous : Indexed.spanBefore ts s.place = some c.previous
  faults : s.faults = c.faults
  depth : s.depth = depth
  fair : Fair ts s.place s.marks

namespace Stands

variable {ts : List Token} {depth : Nat} {c : Cursor} {s : Reading}

/-- The tokens that are left are those from the place on. -/
lemma length (h : Stands ts depth c s) : c.rest.length + s.place = ts.length := by
  rw [h.rest, List.length_drop]
  exact Nat.sub_add_cancel (Nat.le_of_lt h.inside)

/-- There is a next token, and it stands at the place. -/
lemma next (h : Stands ts depth c s) :
    ts[s.place]? = some c.peek ∧ c.rest = c.peek :: ts.drop (s.place + 1) := by
  have hinside := h.inside
  have hrest := h.rest
  rw [List.drop_eq_getElem_cons hinside] at hrest
  have hpeek : c.peek = ts[s.place] := by rw [Cursor.peek, hrest, List.headD_cons]
  rw [hpeek]
  exact ⟨List.getElem?_eq_getElem hinside, hrest⟩

/-- There is always a token left. -/
lemma ne_nil (h : Stands ts depth c s) : c.rest ≠ [] := by
  rw [h.next.2]
  exact List.cons_ne_nil _ _

/-- There is always a round left. -/
lemma not_length_le_zero (h : Stands ts depth c s) : ¬ c.rest.length ≤ 0 :=
  fun hle => h.ne_nil (List.length_eq_zero_iff.1 (Nat.le_zero.1 hle))

/-- Moving on leaves fewer tokens. -/
lemma place_lt_iff (h : Stands ts depth c s) {c₁ : Cursor} {s₁ : Reading}
    (h₁ : Stands ts depth c₁ s₁) : s.place < s₁.place ↔ c₁.rest.length < c.rest.length := by
  have hlength := h.length
  have hlength₁ := h₁.length
  omega

/-- After moving on, one round less is enough. -/
lemma rounds_left (h : Stands ts depth c s) {c₁ : Cursor} {s₁ : Reading}
    (h₁ : Stands ts depth c₁ s₁) (hlt : s.place < s₁.place) {rounds : Nat}
    (hrounds : c.rest.length ≤ rounds + 1) : c₁.rest.length ≤ rounds :=
  Nat.le_of_lt_succ (Nat.lt_of_lt_of_le ((h.place_lt_iff h₁).1 hlt) hrounds)

/-- Something is noted. -/
lemma noted (h : Stands ts depth c s) {m : Mark} (hm : Fair ts s.place (s.marks ++ [m])) :
    Stands ts depth c (s.noted m) :=
  ⟨h.rest, h.inside, h.ended, h.previous, h.faults, h.depth, hm⟩

/-- An error is recorded. -/
lemma report (h : Stands ts depth c s) (e : SyntaxError) (span : Span) :
    Stands ts depth (c.report e span) (s.report e span) :=
  ⟨h.rest, h.inside, h.ended, h.previous, by rw [Reading.report, h.faults]; rfl, h.depth, h.fair⟩

/-- The depth is changed. -/
lemma withDepth (h : Stands ts depth c s) (n : Nat) : Stands ts n c { s with depth := n } :=
  ⟨h.rest, h.inside, h.ended, h.previous, h.faults, rfl, h.fair⟩

/-! ### Looking at tokens -/

/-- The next token. -/
lemma peek (h : Stands ts depth c s) : Indexed.peek ts s = .ok (some c.peek, s) := by
  have hplace : min s.place (ts.length - 1) = s.place :=
    Nat.min_eq_left (Nat.le_pred_of_lt h.inside)
  rw [Indexed.peek, hplace, h.next.1]
  rfl

/-- What the next token is. -/
lemma kind (h : Stands ts depth c s) : Indexed.kind ts s = .ok (some c.kind, s) :=
  Indexed.bind_of_some h.peek

/-- Where the next token stands. -/
lemma span (h : Stands ts depth c s) : Indexed.span ts s = .ok (some c.span, s) :=
  Indexed.bind_of_some h.peek

/-- Whether the tokens are at an end. -/
lemma atEnd (h : Stands ts depth c s) : Indexed.atEnd ts s = .ok (some c.atEnd, s) :=
  Indexed.bind_of_some h.kind

/-- Whether the next token is a given sign. -/
lemma atSymbol (h : Stands ts depth c s) (sign : Symbol) :
    Indexed.atSymbol sign ts s = .ok (some (c.atSymbol sign), s) := by
  rw [Indexed.atSymbol, Indexed.bind_of_some h.kind, Cursor.atSymbol]
  cases c.kind <;> rfl

/-- Whether the next token is a given reserved word. -/
lemma atKeyword (h : Stands ts depth c s) (word : Keyword) :
    Indexed.atKeyword word ts s = .ok (some (c.atKeyword word), s) := by
  rw [Indexed.atKeyword, Indexed.bind_of_some h.kind, Cursor.atKeyword]
  cases c.kind <;> rfl

/-- Where the token stands that was read last. -/
lemma previousSpan (h : Stands ts depth c s) :
    Indexed.previous ts s = .ok (some c.previous, s) := by
  rw [Indexed.previous, h.previous]
  rfl

/-- Whether too many errors were reported. -/
lemma isFull (h : Stands ts depth c s) :
    Indexed.isFull ts s = .ok (some c.faults.isFull, s) := by
  rw [Indexed.isFull, h.faults]

/-- Whether `rudisha` has no value. -/
lemma endsReturn (h : Stands ts depth c s) :
    Indexed.endsReturn ts s = .ok (some (Parser.endsReturn c), s) := by
  rw [Indexed.endsReturn, Indexed.bind_of_some (h.atSymbol .semicolon),
    Indexed.bind_of_some (h.atSymbol .closeBrace), Indexed.bind_of_some h.atEnd]
  rfl

/-- Before a name, the token after it tells whether it is assigned to. -/
lemma assignAhead (h : Stands ts depth c s) {name : String} (hname : c.kind = .name name) :
    Indexed.assignAhead ts s = .ok (some (Parser.assigns c), s) := by
  have hpeek : c.peek.kind = .name name := hname
  have hrest := h.next.2
  have hafter : ts[s.place + 1]? = (ts.drop (s.place + 1)).head? := List.head?_drop.symm
  rw [Indexed.assignAhead, Indexed.bind_of_some rfl, Parser.assigns, hafter, hrest]
  generalize c.peek = t at hpeek
  obtain ⟨k, span⟩ := t
  cases hpeek
  rcases ts.drop (s.place + 1) with _ | ⟨⟨k, span'⟩, others⟩
  · rfl
  · cases k with
    | symbol sign => cases sign <;> rfl
    | _ => rfl

/-! ### Moving on -/

/-- What is left when the cursor has moved on. -/
lemma advance_eq (h : Stands ts depth c s) :
    c.advance = ⟨ts.drop (s.place + 1), c.peek.span, c.faults⟩ := by
  have hrest := h.next.2
  rw [Cursor.advance]
  split
  · next hnil => exact absurd hnil h.ne_nil
  · next t rest hcons =>
    rw [hrest] at hcons
    obtain ⟨rfl, rfl⟩ := List.cons.inj hcons
    rfl

/-- Reading a token that is no mark of the end. -/
lemma advance (h : Stands ts depth c s) (hend : c.atEnd = false) :
    ∃ s₁, Indexed.advance ts s = .ok (some c.peek, s₁) ∧ Stands ts depth c.advance s₁ ∧
      s₁.place = s.place + 1 := by
  have hat := h.next.1
  have hkind : c.peek.kind ≠ .endOfFile := fun hk => by
    rw [Cursor.atEnd, Cursor.kind, hk] at hend
    cases hend
  -- the token is not the last one, since that is a mark of the end
  have hinside : s.place + 1 < ts.length := by
    refine Nat.lt_of_le_of_ne h.inside fun hlast => hkind (h.ended c.peek ?_)
    rw [← hlast]
    exact hat
  refine ⟨({ s with place := s.place + 1 } : Reading).noted (.passed c.peek s.place), ?_, ?_, rfl⟩
  · rw [Indexed.advance, Indexed.bind_of_some h.peek]
    simp only [Indexed.pass, h.inside, if_true]
  · rw [h.advance_eq]
    refine ⟨rfl, hinside, h.ended, ?_, h.faults, h.depth, h.fair.pass hat hkind⟩
    change Indexed.spanBefore ts (s.place + 1) = _
    rw [Indexed.spanBefore, if_pos (Nat.succ_pos _), Nat.add_sub_cancel, hat]
    rfl

end Stands

/-! ### Ending alike -/

/-- With fuel enough, a parser by places ends with a given result, equally far as a cursor, and has
not moved back. -/
def Follows {α : Type} (ts : List Token) (depth : Nat) (s : Reading) (x : Nat → Indexed α)
    (r : Option α × Cursor) : Prop :=
  ∃ enough s', (∀ fuel, enough ≤ fuel → x fuel ts s = .ok (r.1, s')) ∧
    Stands ts depth r.2 s' ∧ s.place ≤ s'.place

/-- A parser by places that ends as one with a cursor does, wherever they have come equally far. -/
def Mirrors {α : Type} (ts : List Token) (depth : Nat) (x : Nat → Indexed α) (p : Parser α) :
    Prop :=
  ∀ {c s}, Stands ts depth c s → Follows ts depth s x (p c)

namespace Follows

variable {α β γ : Type} {ts : List Token} {depth : Nat} {c : Cursor} {s s₁ : Reading}

/-- A parser that has ended. -/
lemma done {x : Indexed α} {r : Option α × Cursor} (hx : x ts s = .ok (r.1, s₁))
    (h : Stands ts depth r.2 s₁) (hle : s.place ≤ s₁.place) :
    Follows ts depth s (fun _ => x) r :=
  ⟨0, s₁, fun _ _ => hx, h, hle⟩

/-- A parser that succeeds where it stands. -/
lemma pure (h : Stands ts depth c s) (a : α) :
    Follows ts depth s (fun _ => Pure.pure a) (some a, c) :=
  .done rfl h (Nat.le_refl _)

/-- Recording an error and failing. -/
lemma failAt (h : Stands ts depth c s) (e : SyntaxError) (span : Span) :
    Follows ts depth s (fun _ => Indexed.failAt e span) (Parser.failAt e span c : Option α × _) :=
  .done rfl (h.report e span) (Nat.le_refl _)

/-- Going on after a step. -/
lemma step {q : Indexed γ} {v : γ} {f : Nat → γ → Indexed α} {r : Option α × Cursor}
    (hq : q ts s = .ok (some v, s₁)) (hle : s.place ≤ s₁.place)
    (h : Follows ts depth s₁ (fun n => f n v) r) : Follows ts depth s (fun n => q >>= f n) r := by
  obtain ⟨enough, s', hend, hstands, hplace⟩ := h
  refine ⟨enough, s', fun fuel hfuel => ?_, hstands, Nat.le_trans hle hplace⟩
  exact (Indexed.bind_of_some hq).trans (hend fuel hfuel)

/-- Going on after looking at something. -/
lemma query {q : Indexed γ} {v : γ} {f : Nat → γ → Indexed α} {r : Option α × Cursor}
    (hq : q ts s = .ok (some v, s)) (h : Follows ts depth s (fun n => f n v) r) :
    Follows ts depth s (fun n => q >>= f n) r :=
  .step hq (Nat.le_refl _) h

/-- Going on after a token. -/
lemma advance {f : Nat → Token → Indexed α} {r : Option α × Cursor} (h : Stands ts depth c s)
    (hend : c.atEnd = false)
    (hf : ∀ s₁, Stands ts depth c.advance s₁ → s₁.place = s.place + 1 →
      Follows ts depth s₁ (fun n => f n c.peek) r) :
    Follows ts depth s (fun n => Indexed.advance >>= f n) r := by
  obtain ⟨s₁, hq, h₁, hplace⟩ := h.advance hend
  exact .step hq (hplace ▸ Nat.le_succ _) (hf s₁ h₁ hplace)

/-- Recording an error that quotes the next token, and failing. -/
lemma failHere (h : Stands ts depth c s) (e : TokenKind → SyntaxError) :
    Follows ts depth s (fun _ => Indexed.failHere e) (Parser.failHere e c : Option α × _) :=
  .query h.peek (.failAt h _ _)

/-- One parser after another. -/
lemma bind {x : Nat → Indexed α} {f : Nat → α → Indexed β} {p : Parser α} {g : α → Parser β}
    (hx : Follows ts depth s x (p c))
    (hf : ∀ a c₁ s₁, p c = (some a, c₁) → Stands ts depth c₁ s₁ → s.place ≤ s₁.place →
      Follows ts depth s₁ (fun n => f n a) (g a c₁)) :
    Follows ts depth s (fun n => x n >>= f n) ((p >>= g) c) := by
  obtain ⟨enough, s₁, hend, hstands, hplace⟩ := hx
  change Follows ts depth s _ (p.andThen g c)
  unfold Parser.andThen
  generalize hr : p c = r at hend hstands hf
  rcases r with ⟨_ | a, c₁⟩
  · exact ⟨enough, s₁, fun fuel hfuel => Indexed.bind_of_none (hend fuel hfuel), hstands, hplace⟩
  · obtain ⟨enough', s₂, hend', hstands', hplace'⟩ := hf a c₁ s₁ rfl hstands hplace
    refine ⟨max enough enough', s₂, fun fuel hfuel => ?_, hstands', Nat.le_trans hplace hplace'⟩
    have hfirst := hend fuel (Nat.le_trans (Nat.le_max_left ..) hfuel)
    exact (Indexed.bind_of_some hfirst).trans
      (hend' fuel (Nat.le_trans (Nat.le_max_right ..) hfuel))

/-- One unit of fuel may be needed first. -/
lemma succ {x : Nat → Indexed α} {r : Option α × Cursor}
    (h : Follows ts depth s (fun n => x (n + 1)) r) : Follows ts depth s x r := by
  obtain ⟨enough, s', hend, h⟩ := h
  refine ⟨enough + 1, s', fun fuel hfuel => ?_, h⟩
  obtain ⟨fuel, rfl⟩ := Nat.exists_eq_add_of_le' (Nat.le_of_add_left_le hfuel)
  exact hend fuel (Nat.le_of_succ_le_succ hfuel)

/-- Something is done to what a parser leaves. -/
lemma after {x : Nat → Indexed α} {f : Reading → Reading} {r : Option α × Cursor} {depth' : Nat}
    (h : Follows ts depth s x r)
    (hf : ∀ s', Stands ts depth r.2 s' → s.place ≤ s'.place →
      Stands ts depth' r.2 (f s') ∧ s.place ≤ (f s').place) :
    Follows ts depth' s (fun n => (x n).after f) r := by
  obtain ⟨enough, s', hend, hstands, hplace⟩ := h
  refine ⟨enough, f s', fun fuel hfuel => ?_, hf s' hstands hplace⟩
  simp only [Indexed.after, hend fuel hfuel]

/-- Going on after a parser, whether it fails or not. -/
lemma attempt {x : Nat → Indexed α} {f : Nat → Option α → Indexed β} {q : Option α × Cursor}
    {r : Option β × Cursor} (hx : Follows ts depth s x q)
    (hf : ∀ s₁, Stands ts depth q.2 s₁ → s.place ≤ s₁.place →
      Follows ts depth s₁ (fun n => f n q.1) r) :
    Follows ts depth s (fun n => Indexed.attempt (x n) >>= f n) r := by
  obtain ⟨enough, s₁, hend, hstands, hplace⟩ := hx
  obtain ⟨enough', s₂, hend', hstands', hplace'⟩ := hf s₁ hstands hplace
  refine ⟨max enough enough', s₂, fun fuel hfuel => ?_, hstands', Nat.le_trans hplace hplace'⟩
  have hfirst := hend fuel (Nat.le_trans (Nat.le_max_left ..) hfuel)
  have hattempt : Indexed.attempt (x fuel) ts s = .ok (some q.1, s₁) := by
    rw [Indexed.attempt, hfirst]
  exact (Indexed.bind_of_some hattempt).trans
    (hend' fuel (Nat.le_trans (Nat.le_max_right ..) hfuel))

/-- Where a parser is entered and left is noted. -/
lemma tracked {x : Nat → Indexed α} {r : Option α × Cursor} (hs : Stands ts depth c s)
    (h : Follows ts depth s x r) : Follows ts depth s (fun n => Indexed.tracked (x n)) r :=
  after h fun _ h' hle => ⟨h'.noted (h'.fair.left hle (hs.depth.trans h'.depth.symm)), hle⟩

/-- A round that moves on is noted. -/
lemma round {x : Nat → Indexed α} {r : Option α × Cursor} (h : Follows ts depth s x r)
    (hshorter : ∀ s', Stands ts depth r.2 s' → s.place < s'.place) :
    Follows ts depth s (fun n => Indexed.round (x n)) r :=
  after h fun s' h' hle => ⟨h'.noted (h'.fair.round (hshorter s' h')), hle⟩

end Follows

namespace Mirrors

variable {α : Type} {ts : List Token} {depth : Nat} {x : Nat → Indexed α} {p : Parser α}

/-- More fuel does not matter. -/
lemma succ (h : Mirrors ts depth x p) : Mirrors ts depth (fun n => x (n + 1)) p := by
  intro c s hs
  obtain ⟨enough, s', hend, h'⟩ := h hs
  exact ⟨enough, s', fun fuel hfuel => hend (fuel + 1) (Nat.le_succ_of_le hfuel), h'⟩

end Mirrors

/-! ### Steps of the parser -/

namespace Cursor

/-- The next token is no mark of the end if it is of another kind. -/
lemma not_atEnd_of_kind {c : Cursor} {k : TokenKind} (hk : c.kind = k) (hend : k.isEnd = false) :
    c.atEnd = false := by
  rw [atEnd, hk, hend]

/-- A sign is no mark of the end. -/
lemma not_atEnd_of_atSymbol {c : Cursor} {sign : Symbol} (h : c.atSymbol sign = true) :
    c.atEnd = false :=
  not_atEnd_of_kind (atSymbol_iff.1 h) rfl

/-- A reserved word is no mark of the end. -/
lemma not_atEnd_of_atKeyword {c : Cursor} {word : Keyword} (h : c.atKeyword word = true) :
    c.atEnd = false :=
  not_atEnd_of_kind (atKeyword_iff.1 h) rfl

end Cursor

section Steps

variable {α : Type} {ts : List Token} {depth : Nat} {c : Cursor} {s : Reading}

/-- Reading a sign if it is the next token. -/
lemma Follows.eat {sign : Symbol} {f : Nat → Bool → Indexed α} {r : Option α × Cursor}
    (h : Stands ts depth c s)
    (hyes : c.atSymbol sign = true → ∀ s₁, Stands ts depth c.advance s₁ →
      s₁.place = s.place + 1 → Follows ts depth s₁ (fun n => f n true) r)
    (hno : c.atSymbol sign = false → Follows ts depth s (fun n => f n false) r) :
    Follows ts depth s (fun n => Indexed.eat sign >>= f n) r := by
  cases hat : c.atSymbol sign with
  | true =>
    obtain ⟨s₁, hq, h₁, hplace⟩ := h.advance (Cursor.not_atEnd_of_atSymbol hat)
    refine .step ?_ (hplace ▸ Nat.le_succ _) (hyes hat s₁ h₁ hplace)
    rw [Indexed.eat, Indexed.bind_of_some (h.atSymbol sign), hat]
    exact Indexed.bind_of_some hq
  | false =>
    refine .query ?_ (hno hat)
    rw [Indexed.eat, Indexed.bind_of_some (h.atSymbol sign), hat]
    rfl

/-- A token that is read. -/
lemma follows_advance (h : Stands ts depth c s) (hend : c.atEnd = false) :
    Follows ts depth s (fun _ => Indexed.advance) (some c.peek, c.advance) := by
  obtain ⟨s₁, hq, h₁, hplace⟩ := h.advance hend
  exact .done hq h₁ (hplace ▸ Nat.le_succ _)

/-- Reading a sign that has to stand here. -/
lemma mirrors_expect (sign : Symbol) :
    Mirrors ts depth (fun _ => Indexed.expect sign) (Parser.expect sign) := by
  intro c s h
  refine .query (h.atSymbol sign) ?_
  unfold Parser.expect
  cases hat : c.atSymbol sign with
  | true => exact follows_advance h (Cursor.not_atEnd_of_atSymbol hat)
  | false => exact .failHere h _

/-- Reading the sign that closes a bracket. -/
lemma mirrors_close (sign : Symbol) (opened : Span) :
    Mirrors ts depth (fun _ => Indexed.close sign opened) (Parser.close sign opened) := by
  intro c s h
  refine .query h.atEnd ?_
  unfold Parser.close
  cases c.atEnd with
  | true => exact .failAt h _ _
  | false => exact mirrors_expect sign h

/-- Reading a name. -/
lemma mirrors_ident : Mirrors ts depth (fun _ => Indexed.ident) Parser.ident := by
  intro c s h
  refine .query h.kind ?_
  unfold Parser.ident
  cases hkind : c.kind with
  | name n =>
    exact .advance h (Cursor.not_atEnd_of_kind hkind rfl) fun s₁ h₁ _ => .pure h₁ _
  | _ => exact .failHere h _

/-- A sign that was read is the next token. -/
lemma Parser.expect_eq_some {sign : Symbol} {t : Token} {c₁ : Cursor}
    (h : Parser.expect sign c = (some t, c₁)) :
    c.atSymbol sign = true ∧ t = c.peek ∧ c₁ = c.advance := by
  unfold Parser.expect at h
  split at h
  · next hat =>
    cases h
    exact ⟨hat, rfl, rfl⟩
  · cases h

/-- A sign that was read to close a bracket is the next token. -/
lemma Parser.close_eq_some {sign : Symbol} {opened : Span} {t : Token} {c₁ : Cursor}
    (h : Parser.close sign opened c = (some t, c₁)) :
    c.atSymbol sign = true ∧ t = c.peek ∧ c₁ = c.advance := by
  unfold Parser.close at h
  split at h
  · cases h
  · exact Parser.expect_eq_some h

/-- The token that was read last is that which was next before. -/
lemma Cursor.previous_advance (h : c.rest ≠ []) : c.advance.previous = c.peek.span := by
  unfold Cursor.advance Cursor.peek
  split
  · next hnil => exact absurd hnil h
  · next hcons => rw [hcons]; rfl

end Steps

/-! ### Statements -/

/-- Reads a statement, or skips it if it cannot be read. -/
def Parser.statementOrSkip (expr : Parser Expr) : Parser (Option Stmt) := fun c =>
  match Parser.statement expr c with
  | (some stmt, c) => (some (some stmt), c)
  | (none, c) => (some none, c.synchronize)

/-- One statement is read or skipped, and then further ones. -/
lemma oneStatement_eq (expr : Parser Expr) (rest : Parser (List Stmt)) (c : Cursor) :
    Parser.oneStatement expr rest c = (Parser.statementOrSkip expr >>= fun stmt? =>
      rest >>= fun stmts => pure (stmt?.toList ++ stmts)) c := by
  change _ = Parser.andThen _ _ c
  unfold Parser.oneStatement Parser.andThen Parser.statementOrSkip
  rcases Parser.statement expr c with ⟨_ | stmt, c₁⟩
  · change _ = Parser.andThen _ _ c₁.synchronize
    dsimp only
    unfold Parser.andThen
    rcases rest c₁.synchronize with ⟨_ | stmts, c₂⟩ <;> rfl
  · rfl

/-- Before a statement, a round of reading or skipping moves on. -/
lemma length_statementOrSkip_lt {m : Nat} {expr : Parser Expr}
    (hyields : Placement.any.watch.YieldsExpr m m expr) {c : Cursor} (hend : c.atEnd = false)
    (hbrace : c.atSymbol .closeBrace = false) :
    (Parser.statementOrSkip expr c).2.rest.length < c.rest.length := by
  have hstatement := Parser.yields_statement hyields (fun _ => trivial) (c := c) trivial
  unfold Parser.statementOrSkip
  generalize Parser.statement expr c = q at hstatement
  rcases q with ⟨_ | stmt, c₁⟩
  · exact Cursor.length_synchronize_lt hstatement.onward hend hbrace
  · exact hstatement.length_lt Stmt.Ended.ne_nil

section Statements

variable {ts : List Token} {depth : Nat} {c : Cursor} {s : Reading} {x : Nat → Indexed Expr}
  {expr : Parser Expr}

/-- Skipping stops where the cursor does. -/
lemma follows_skip {start : Nat} (rounds : Nat) (h : Stands ts depth c s)
    (hrounds : c.rest.length ≤ rounds) (hstart : start ≤ s.place) :
    Follows ts depth s (fun n => Indexed.skip start n)
      (some (), Cursor.resume c.faults (decide (start < s.place)) c.previous c.rest) := by
  induction rounds generalizing c s with
  | zero => exact absurd hrounds h.not_length_le_zero
  | succ rounds ih =>
    -- the next token is passed over, and then skipping goes on
    have hgo (hend : c.atEnd = false) : Follows ts depth s
        (fun n => Indexed.advance >>= fun _ => Indexed.skip start n)
        (some (), Cursor.resume c.faults true c.peek.span (ts.drop (s.place + 1))) := by
      refine .advance h hend fun s₁ h₁ hplace => ?_
      have hmoved : decide (start < s₁.place) = true := decide_eq_true (by omega)
      have hnext := ih h₁ (h.rounds_left h₁ (by omega) hrounds) (by omega)
      rw [hmoved, h.advance_eq] at hnext
      exact hnext
    have hrest := h.next.2
    have hstay : (⟨c.peek :: ts.drop (s.place + 1), c.previous, c.faults⟩ : Cursor) = c := by
      rw [← hrest]
    have hword (k : TokenKind) (hend : c.atEnd = false) : Follows ts depth s
        (fun n => Indexed.place >>= fun i =>
          if start < i && Cursor.resumes k then pure ()
          else Indexed.advance >>= fun _ => Indexed.skip start n)
        (some (), if decide (start < s.place) && Cursor.resumes k then
            ⟨c.peek :: ts.drop (s.place + 1), c.previous, c.faults⟩
          else Cursor.resume c.faults true c.peek.span (ts.drop (s.place + 1))) := by
      refine .query rfl ?_
      split
      · rw [hstay]
        exact .pure h ()
      · exact hgo hend
    refine .succ (.query h.kind ?_)
    have hkind : c.peek.kind = c.kind := rfl
    rw [hrest, Cursor.resume, hkind]
    cases hk : c.kind with
    | endOfFile =>
      rw [hstay]
      exact .pure h ()
    | symbol sign =>
      cases sign with
      | semicolon =>
        refine .advance h (Cursor.not_atEnd_of_kind hk rfl) fun s₁ h₁ _ => ?_
        rw [← h.advance_eq]
        exact .pure h₁ ()
      | closeBrace =>
        rw [hstay]
        exact .pure h ()
      | _ => exact hword _ (Cursor.not_atEnd_of_kind hk rfl)
    | _ => exact hword _ (Cursor.not_atEnd_of_kind hk rfl)

/-- Skipping the rest of a statement. -/
lemma follows_synchronize (h : Stands ts depth c s) :
    Follows ts depth s (fun n => Indexed.synchronize n) (some (), c.synchronize) := by
  have hskip := follows_skip c.rest.length h (Nat.le_refl _) (Nat.le_refl _)
  rw [decide_eq_false (Nat.lt_irrefl _)] at hskip
  exact .query rfl hskip

variable (hexpr : Mirrors ts depth x expr)

include hexpr

/-- What follows `fanya`. -/
lemma follows_binding (h : Stands ts depth c s) (hend : c.atEnd = false) :
    Follows ts depth s (fun n => Indexed.binding (x n)) (Parser.binding expr c) := by
  refine .tracked h (.advance h hend fun s₁ h₁ _ => ?_)
  refine .bind (mirrors_ident h₁) fun name c₂ s₂ _ h₂ _ => ?_
  refine .bind (mirrors_expect .assign h₂) fun _ c₃ s₃ _ h₃ _ => ?_
  exact .bind (hexpr h₃) fun value c₄ s₄ _ h₄ _ => .pure h₄ _

/-- An assignment. -/
lemma mirrors_assignment :
    Mirrors ts depth (fun n => Indexed.assignment (x n)) (Parser.assignment expr) := by
  intro c s h
  refine .tracked h (.bind (mirrors_ident h) fun name c₁ s₁ _ h₁ _ => ?_)
  refine .bind (mirrors_expect .assign h₁) fun _ c₂ s₂ _ h₂ _ => ?_
  exact .bind (hexpr h₂) fun value c₃ s₃ _ h₃ _ => .pure h₃ _

/-- `rudisha` and its value. -/
lemma follows_returning (h : Stands ts depth c s) (hend : c.atEnd = false) :
    Follows ts depth s (fun n => Indexed.returning (x n)) (Parser.returning expr c) := by
  refine .tracked h (.advance h hend fun s₁ h₁ _ => .query h₁.endsReturn ?_)
  change Follows ts depth s₁ _ ((if Parser.endsReturn c.advance = true then _ else _ :
    Parser Stmt) c.advance)
  cases Parser.endsReturn c.advance with
  | true => exact .pure h₁ _
  | false => exact .bind (hexpr h₁) fun value c₂ s₂ _ h₂ _ => .pure h₂ _

/-- An expression that stands as a statement. -/
lemma mirrors_bare : Mirrors ts depth (fun n => Indexed.bare (x n)) (Parser.bare expr) := by
  intro c s h
  refine .tracked h (.bind (hexpr h) fun value c₁ s₁ _ h₁ _ => .query (h₁.atSymbol .assign) ?_)
  rw [Parser.look_andThen]
  cases c₁.atSymbol .assign with
  | true => exact .failAt h₁ _ _
  | false => exact .pure h₁ _

omit hexpr in
/-- Only before a name the tokens assign to one. -/
lemma not_assigns_of_kind (hname : ∀ n, c.kind ≠ .name n) : Parser.assigns c = false := by
  unfold Parser.assigns
  split
  · next hrest => exact absurd (by rw [Cursor.kind, Cursor.peek, hrest]; rfl) (hname _)
  · rfl

/-- A statement up to its semicolon. -/
lemma mirrors_unterminated :
    Mirrors ts depth (fun n => Indexed.unterminated (x n)) (Parser.unterminated expr) := by
  intro c s h
  have hbare (hname : ∀ n, c.kind ≠ .name n) : Follows ts depth s (fun n => Indexed.bare (x n))
      (if Parser.assigns c then Parser.assignment expr c else Parser.bare expr c) := by
    rw [not_assigns_of_kind hname]
    exact mirrors_bare hexpr h
  refine .query h.kind ?_
  unfold Parser.unterminated
  cases hk : c.kind with
  | keyword word =>
    cases word with
    | fanya => exact follows_binding hexpr h (Cursor.not_atEnd_of_kind hk rfl)
    | rudisha => exact follows_returning hexpr h (Cursor.not_atEnd_of_kind hk rfl)
    | vunja | endelea =>
      exact .advance h (Cursor.not_atEnd_of_kind hk rfl) fun s₁ h₁ _ => .pure h₁ _
    | _ => exact hbare fun n => by rw [hk]; exact TokenKind.noConfusion
  | name n =>
    refine .query (h.assignAhead hk) ?_
    cases Parser.assigns c with
    | true => exact mirrors_assignment hexpr h
    | false => exact mirrors_bare hexpr h
  | _ => exact hbare fun n => by rw [hk]; exact TokenKind.noConfusion

/-- A statement and its semicolon. -/
lemma mirrors_statement :
    Mirrors ts depth (fun n => Indexed.statement (x n)) (Parser.statement expr) := by
  intro c s h
  refine .tracked h (.bind (mirrors_unterminated hexpr h) fun stmt c₁ s₁ _ h₁ _ => ?_)
  rw [Parser.eat_andThen]
  refine .eat h₁ (fun hat s₂ h₂ _ => ?_) fun hat => ?_
  · rw [if_pos hat]
    exact .pure h₂ stmt
  · rw [hat]
    exact .pure h₁ stmt

/-- A statement that is read, or skipped if it cannot be read. -/
lemma mirrors_statementOrSkip :
    Mirrors ts depth (fun n => Indexed.statementOrSkip (x n) n) (Parser.statementOrSkip expr) := by
  intro c s h
  refine .attempt (mirrors_statement hexpr h) fun s₁ h₁ _ => ?_
  unfold Parser.statementOrSkip
  generalize Parser.statement expr c = q at h₁
  rcases q with ⟨_ | stmt, c₁⟩
  · exact .bind (p := fun c => (some (), c.synchronize)) (g := fun _ => pure none)
      (follows_synchronize h₁) fun _ c₂ s₂ _ h₂ _ => .pure h₂ none
  · exact .pure h₁ (some stmt)

omit hexpr in
/-- A round that moves on, and then further ones. -/
lemma follows_oneRound {one : Nat → Indexed (Option Stmt)} {others : Nat → Indexed (List Stmt)}
    {p : Parser (Option Stmt)} {rest : Parser (List Stmt)} (h : Stands ts depth c s)
    (hone : Follows ts depth s one (p c)) (hshorter : (p c).2.rest.length < c.rest.length)
    (hothers : ∀ {c₁ s₁}, Stands ts depth c₁ s₁ → c₁.rest.length < c.rest.length →
      Follows ts depth s₁ others (rest c₁)) :
    Follows ts depth s (fun n => Indexed.round (one n) >>= fun stmt? =>
        others n >>= fun stmts => pure (stmt?.toList ++ stmts))
      ((p >>= fun stmt? => rest >>= fun stmts => pure (stmt?.toList ++ stmts)) c) := by
  have hround := hone.round fun s₁ h₁ => (h.place_lt_iff h₁).2 hshorter
  refine .bind hround fun stmt? c₁ s₁ hread h₁ _ => ?_
  have hless : c₁.rest.length < c.rest.length := by rwa [hread] at hshorter
  exact .bind (hothers h₁ hless) fun stmts c₂ s₂ _ h₂ _ => .pure h₂ _

/-- The statements of a block. Every round moves on. -/
lemma follows_statements {m : Nat} (hyields : Placement.any.watch.YieldsExpr m m expr)
    (rounds : Nat) (h : Stands ts depth c s) (hrounds : c.rest.length ≤ rounds) :
    Follows ts depth s (fun n => Indexed.statements (x n) n)
      (Parser.blockStatements expr rounds c) := by
  induction rounds generalizing x c s with
  | zero => exact absurd hrounds h.not_length_le_zero
  | succ rounds ih =>
    refine .succ (.query (h.atSymbol .closeBrace) (.query h.atEnd (.query h.isFull ?_)))
    rw [Parser.blockStatements_succ]
    cases hstop : c.atSymbol .closeBrace || c.atEnd || c.faults.isFull with
    | true => exact .pure h []
    | false =>
      rw [Bool.or_eq_false_iff, Bool.or_eq_false_iff] at hstop
      have hshorter := length_statementOrSkip_lt hyields hstop.1.2 hstop.1.1
      rw [if_neg Bool.false_ne_true, oneStatement_eq]
      exact follows_oneRound h (mirrors_statementOrSkip hexpr.succ h) hshorter fun h₁ hless =>
        ih hexpr.succ h₁ (Nat.le_of_lt_succ (Nat.lt_of_lt_of_le hless hrounds))

/-- A block. -/
lemma mirrors_block {m : Nat} (hyields : Placement.any.watch.YieldsExpr m m expr) :
    Mirrors ts depth (fun n => Indexed.block (x n) n) (Parser.block expr) := by
  intro c s h
  refine .tracked h (.query h.span ?_)
  refine .bind (mirrors_expect .openBrace h) fun opened c₁ s₁ hopened h₁ _ => ?_
  obtain ⟨-, rfl, -⟩ := Parser.expect_eq_some hopened
  refine .bind (p := fun c => Parser.blockStatements expr c.rest.length c)
    (follows_statements hexpr hyields _ h₁ (Nat.le_refl _)) fun stmts c₂ s₂ _ h₂ _ => ?_
  refine .bind (mirrors_close .closeBrace _ h₂) fun closed c₃ s₃ hclosed h₃ _ => ?_
  obtain ⟨-, rfl, rfl⟩ := Parser.close_eq_some hclosed
  refine .query h₃.previousSpan ?_
  rw [Cursor.previous_advance h₂.ne_nil]
  exact .pure h₃ _

end Statements

/-! ### Operators and calls -/

section Operators

variable {ts : List Token} {depth : Nat} {c : Cursor} {s : Reading} {x : Nat → Indexed Expr}
  {operand : Parser Expr} {op? : TokenKind → Option BinaryOp}

/-- The operators of one level and their right operands. -/
lemma follows_chain (hoperand : Mirrors ts depth x operand) (hop : op? .endOfFile = none)
    (rounds : Nat) (left : Expr) (h : Stands ts depth c s) (hrounds : c.rest.length ≤ rounds) :
    Follows ts depth s (fun n => Indexed.chain op? (x n) n left)
      (Parser.chain op? operand rounds left c) := by
  induction rounds generalizing x left c s with
  | zero => exact absurd hrounds h.not_length_le_zero
  | succ rounds ih =>
    refine .succ (.query h.kind ?_)
    cases hkind : op? c.kind with
    | none =>
      rw [Parser.chain, hkind]
      exact .pure h left
    | some op =>
      have hend : c.atEnd = false := by
        refine Bool.eq_false_iff.2 fun hend => ?_
        rw [Cursor.atEnd_iff.1 hend, hop] at hkind
        cases hkind
      rw [Parser.chain_succ hkind]
      refine .advance h hend fun s₁ h₁ hplace => ?_
      refine .bind (hoperand.succ h₁) fun right c₂ s₂ _ h₂ hle => ?_
      exact ih hoperand.succ _ h₂ (h.rounds_left h₂ (by omega) hrounds)

/-- Operands of one level. -/
lemma mirrors_level (hoperand : Mirrors ts depth x operand) (hop : op? .endOfFile = none) :
    Mirrors ts depth (fun n => Indexed.level op? n (x n)) (Parser.level op? operand) := by
  intro c s h
  exact .tracked h (.bind (hoperand h) fun left c₁ s₁ _ h₁ _ =>
    follows_chain hoperand hop _ left h₁ (Nat.le_refl _))

/-- All levels of operators. -/
lemma mirrors_operators (hoperand : Mirrors ts depth x operand) :
    Mirrors ts depth (fun n => Indexed.operators n (x n)) (Parser.operators operand) :=
  mirrors_level (mirrors_level (mirrors_level (mirrors_level (mirrors_level hoperand rfl) rfl) rfl)
    rfl) rfl

end Operators

section Operands

variable {ts : List Token} {depth : Nat} {c : Cursor} {s : Reading} {x : Nat → Indexed Expr}
  {expr : Parser Expr} (hexpr : Mirrors ts depth x expr)

include hexpr

/-- One or more arguments. -/
lemma follows_arguments (rounds : Nat) (h : Stands ts depth c s)
    (hrounds : c.rest.length ≤ rounds) :
    Follows ts depth s (fun n => Indexed.arguments (x n) n) (Parser.arguments expr rounds c) := by
  induction rounds generalizing x c s with
  | zero => exact absurd hrounds h.not_length_le_zero
  | succ rounds ih =>
    rw [Parser.arguments_succ]
    refine .succ (.bind (hexpr.succ h) fun e c₁ s₁ _ h₁ hle => ?_)
    unfold Parser.furtherArguments
    refine .eat h₁ (fun hat s₂ h₂ hplace => ?_) fun hat => ?_
    · rw [if_pos hat]
      refine .query (h₂.atSymbol .closeParen) ?_
      cases c₁.advance.atSymbol .closeParen with
      | true => exact .pure h₂ [e]
      | false =>
        have hothers := ih hexpr.succ h₂ (h.rounds_left h₂ (by omega) hrounds)
        exact .bind hothers fun es c₃ s₃ _ h₃ _ => .pure h₃ _
    · rw [hat]
      exact .pure h₁ [e]

/-- The arguments of a call. -/
lemma mirrors_argumentList :
    Mirrors ts depth (fun n => Indexed.argumentList (x n) n) (Parser.argumentList expr) := by
  intro c s h
  refine .tracked h (.query (h.atSymbol .closeParen) ?_)
  unfold Parser.argumentList
  cases c.atSymbol .closeParen with
  | true => exact .pure h []
  | false => exact follows_arguments hexpr _ h (Nat.le_refl _)

/-- One argument list after a callee. -/
lemma follows_call (h : Stands ts depth c s) (hend : c.atEnd = false) (callee : Expr) :
    Follows ts depth s (fun n => Indexed.call (x n) n callee) (Parser.call expr callee c) := by
  refine .advance h hend fun s₁ h₁ _ => ?_
  refine .bind (mirrors_argumentList hexpr h₁) fun args c₂ s₂ _ h₂ _ => ?_
  refine .bind (mirrors_close .closeParen _ h₂) fun closed c₃ s₃ hclosed h₃ _ => ?_
  obtain ⟨-, rfl, rfl⟩ := Parser.close_eq_some hclosed
  refine .query h₃.previousSpan ?_
  rw [Cursor.previous_advance h₂.ne_nil]
  exact .pure h₃ _

variable {m : Nat} (hyields : Placement.any.watch.YieldsExpr m m expr)

include hyields

omit hexpr in
/-- An argument list has a token. -/
lemma length_call_lt {callee e : Expr} {c₁ : Cursor} (hat : c.atSymbol .openParen)
    (hread : Parser.call expr callee c = (some e, c₁)) : c₁.rest.length < c.rest.length := by
  have hcall : Placement.any.watch.Yields m c (fun _ us _ => us ≠ [])
      (Parser.call expr callee c) := by
    refine .next (Cursor.atSymbol_iff.1 hat) (.symbol (by decide)) fun _ => ?_
    refine .bind (Parser.yields_argumentList hyields) fun _ _ _ _ _ _ => ?_
    exact .last (Parser.yields_close (fun _ => trivial) trivial) (fun _ _ => rfl)
      fun _ _ _ _ _ _ => List.cons_ne_nil _ _
  have houtcome := hcall trivial
  rw [hread] at houtcome
  exact houtcome.length_lt id

/-- The argument lists after a callee. -/
lemma follows_calls (rounds : Nat) (callee : Expr) (h : Stands ts depth c s)
    (hrounds : c.rest.length ≤ rounds) :
    Follows ts depth s (fun n => Indexed.calls (x n) n callee)
      (Parser.calls expr rounds callee c) := by
  induction rounds generalizing x callee c s with
  | zero => exact absurd hrounds h.not_length_le_zero
  | succ rounds ih =>
    refine .succ (.query (h.atSymbol .openParen) ?_)
    cases hat : c.atSymbol .openParen with
    | false =>
      rw [Parser.calls, hat]
      exact .pure h callee
    | true =>
      have hend := Cursor.not_atEnd_of_atSymbol hat
      rw [Parser.calls_succ hat]
      refine .bind (follows_call hexpr.succ h hend callee) fun e c₁ s₁ hread h₁ _ => ?_
      have hless := length_call_lt hyields hat hread
      exact ih hexpr.succ e h₁ (by omega)

/-! ### Operands -/

omit hyields in
/-- A condition between parentheses. -/
lemma mirrors_condition :
    Mirrors ts depth (fun n => Indexed.condition (x n)) (Parser.condition expr) := by
  intro c s h
  refine .tracked h (.bind (mirrors_expect .openParen h) fun opened c₁ s₁ _ h₁ _ => ?_)
  refine .bind (hexpr h₁) fun e c₂ s₂ _ h₂ _ => ?_
  exact .bind (mirrors_close .closeParen _ h₂) fun _ c₃ s₃ _ h₃ _ => .pure h₃ e

/-- A loop. -/
lemma follows_loop (h : Stands ts depth c s) (hend : c.atEnd = false) :
    Follows ts depth s (fun n => Indexed.loop (x n) n) (Parser.loop expr c) := by
  refine .tracked h (.advance h hend fun s₁ h₁ _ => ?_)
  refine .bind (mirrors_condition hexpr h₁) fun e c₂ s₂ _ h₂ _ => ?_
  refine .bind (mirrors_block hexpr hyields h₂) fun body c₃ s₃ _ h₃ _ => ?_
  exact .query h₃.previousSpan (.pure h₃ _)

/-- A conditional and those that follow it as alternatives. -/
lemma follows_conditional (rounds : Nat) (h : Stands ts depth c s) (hend : c.atEnd = false)
    (hrounds : c.rest.length ≤ rounds) :
    Follows ts depth s (fun n => Indexed.conditional (x n) n)
      (Parser.conditional expr rounds c) := by
  induction rounds generalizing x c s with
  | zero => exact absurd hrounds h.not_length_le_zero
  | succ rounds ih =>
    rw [Parser.conditional_succ]
    refine .succ (.tracked h (.advance h hend fun s₁ h₁ hplace => ?_))
    refine .bind (mirrors_condition hexpr.succ h₁) fun e c₂ s₂ _ h₂ hle₂ => ?_
    refine .bind (mirrors_block hexpr.succ hyields h₂) fun yes c₃ s₃ _ h₃ hle₃ => ?_
    refine .query (h₃.atKeyword .sivyo) ?_
    rw [Parser.alternative, Parser.look_andThen]
    cases helse : c₃.atKeyword .sivyo with
    | false => exact .query h₃.previousSpan (.pure h₃ _)
    | true =>
      refine .advance h₃ (Cursor.not_atEnd_of_atKeyword helse) fun s₄ h₄ hplace₄ => ?_
      refine .query (h₄.atKeyword .kama) ?_
      change Follows ts depth s₄ _ (Parser.otherwise expr rounds c.peek e yes c₃.advance)
      rw [Parser.otherwise, Parser.look_andThen]
      cases hagain : c₃.advance.atKeyword .kama with
      | true =>
        have hnext := ih hexpr.succ h₄ (Cursor.not_atEnd_of_atKeyword hagain)
          (h.rounds_left h₄ (by omega) hrounds)
        exact .bind hnext fun next c₅ s₅ _ h₅ _ => .query h₅.previousSpan (.pure h₅ _)
      | false =>
        exact .bind (mirrors_block hexpr.succ hyields h₄) fun no c₅ s₅ _ h₅ _ =>
          .query h₅.previousSpan (.pure h₅ _)

omit hexpr hyields in
/-- One or more parameters. -/
lemma follows_parameters (rounds : Nat) (given : List Ident) (h : Stands ts depth c s)
    (hrounds : c.rest.length ≤ rounds) :
    Follows ts depth s (fun n => Indexed.parameters n given)
      (Parser.parameters rounds given c) := by
  induction rounds generalizing given c s with
  | zero => exact absurd hrounds h.not_length_le_zero
  | succ rounds ih =>
    rw [Parser.parameters_succ]
    refine .succ (.bind (mirrors_ident h) fun param c₁ s₁ _ h₁ hle => ?_)
    -- what follows the parameter is read from where it was read or reported
    have hfurther {c₂ : Cursor} {s₂ : Reading} (h₂ : Stands ts depth c₂ s₂)
        (hle₂ : s.place ≤ s₂.place) : Follows ts depth s₂
          (fun n => Indexed.eat .comma >>= fun more =>
            if more then Indexed.atSymbol .closeParen >>= fun closing =>
              if closing then pure (given ++ [param]) else Indexed.parameters n (given ++ [param])
            else pure (given ++ [param]))
          (Parser.furtherParameters rounds (given ++ [param]) c₂) := by
      rw [Parser.furtherParameters, Parser.eat_andThen]
      refine .eat h₂ (fun hat s₃ h₃ hplace => ?_) fun hat => ?_
      · rw [if_pos hat]
        refine .query (h₃.atSymbol .closeParen) ?_
        change Follows ts depth s₃ _ ((Parser.look (·.atSymbol .closeParen) >>= _) c₂.advance)
        rw [Parser.look_andThen]
        cases c₂.advance.atSymbol .closeParen with
        | true => exact .pure h₃ _
        | false =>
          exact ih _ h₃ (h.rounds_left h₃ (by omega) hrounds)
      · rw [hat]
        exact .pure h₂ _
    split
    · exact .step rfl (Nat.le_refl _) (hfurther (h₁.report _ _) hle)
    · exact hfurther h₁ hle

/-- The parameters and the body of a function. -/
lemma mirrors_functionRest (name : Option Ident) (start : Span) :
    Mirrors ts depth (fun n => Indexed.functionRest (x n) n name start)
      (Parser.functionRest expr name start) := by
  intro c s h
  refine .tracked h (.bind (mirrors_expect .openParen h) fun opened c₁ s₁ _ h₁ _ => ?_)
  have hparams : Follows ts depth s₁
      (fun n => Indexed.atSymbol .closeParen >>= fun closing =>
        if closing then pure [] else Indexed.parameters n [])
      (if c₁.atSymbol .closeParen then (some [], c₁)
        else Parser.parameters c₁.rest.length [] c₁) := by
    refine .query (h₁.atSymbol .closeParen) ?_
    cases c₁.atSymbol .closeParen with
    | true => exact .pure h₁ []
    | false => exact follows_parameters _ [] h₁ (Nat.le_refl _)
  refine .bind (p := fun c => if c.atSymbol .closeParen then (some [], c)
    else Parser.parameters c.rest.length [] c) hparams fun params c₂ s₂ _ h₂ _ => ?_
  refine .bind (mirrors_close .closeParen _ h₂) fun _ c₃ s₃ _ h₃ _ => ?_
  exact .bind (mirrors_block hexpr hyields h₃) fun body c₄ s₄ _ h₄ _ => .pure h₄ _

/-- An operand that begins with its own sign or word. -/
lemma mirrors_primary :
    Mirrors ts depth (fun n => Indexed.primary (x n) n) (Parser.primary expr) := by
  intro c s h
  -- a token that is an operand by itself
  have hleaf {k : TokenKind} (hk : c.kind = k) (hends : k.isEnd = false) (e : Expr) :
      Follows ts depth s (fun _ => Indexed.advance >>= fun _ => pure e) (some e, c.advance) :=
    .advance h (Cursor.not_atEnd_of_kind hk hends) fun s₁ h₁ _ => .pure h₁ e
  refine .tracked h (.query h.span (.query h.kind ?_))
  unfold Parser.primary
  cases hk : c.kind with
  | number | text | name => exact hleaf hk rfl _
  | symbol sign =>
    cases sign with
    | openParen =>
      refine .advance h (Cursor.not_atEnd_of_kind hk rfl) fun s₁ h₁ _ => ?_
      change Follows ts depth s₁ _ ((expr >>= _) c.advance)
      refine .bind (hexpr h₁) fun inner c₂ s₂ _ h₂ _ => ?_
      refine .bind (mirrors_close .closeParen _ h₂) fun closed c₃ s₃ hclosed h₃ _ => ?_
      obtain ⟨-, rfl, rfl⟩ := Parser.close_eq_some hclosed
      refine .query h₃.previousSpan ?_
      rw [Cursor.previous_advance h₂.ne_nil]
      exact .pure h₃ _
    | _ => exact .failHere h _
  | keyword word =>
    cases word with
    | kweli | sikweli | tupu => exact hleaf hk rfl _
    | kama =>
      have hend := Cursor.not_atEnd_of_kind hk rfl
      have hchoice := follows_conditional hexpr hyields _ h hend (Nat.le_refl _)
      exact .bind hchoice fun branches c₁ s₁ _ h₁ _ => .pure h₁ _
    | wakati => exact follows_loop hexpr hyields h (Cursor.not_atEnd_of_kind hk rfl)
    | unda =>
      exact .advance h (Cursor.not_atEnd_of_kind hk rfl) fun s₁ h₁ _ =>
        mirrors_functionRest hexpr hyields none c.span h₁
    | kazi =>
      refine .advance h (Cursor.not_atEnd_of_kind hk rfl) fun s₁ h₁ _ => ?_
      change Follows ts depth s₁ _ ((Parser.ident >>= _) c.advance)
      exact .bind (mirrors_ident h₁) fun name c₂ s₂ _ h₂ _ =>
        mirrors_functionRest hexpr hyields (some name) c.span h₂
    | _ => exact .failHere h _
  | _ => exact .failHere h _

/-- A sign and the operand below it, or an operand with its calls. -/
lemma mirrors_prefixed {y : Nat → Indexed Expr} {below : Parser Expr}
    (hbelow : Mirrors ts depth y below) :
    Mirrors ts depth (fun n => Indexed.prefixed (y n) (x n) n) (Parser.prefixed below expr) := by
  intro c s h
  refine .tracked h (.query h.span (.query h.kind ?_))
  cases hop : Parser.unaryOp? c.kind with
  | some op =>
    have hend : c.atEnd = false := by
      refine Bool.eq_false_iff.2 fun hend => ?_
      rw [Cursor.atEnd_iff.1 hend] at hop
      cases hop
    rw [Parser.prefixed, hop]
    refine .advance h hend fun s₁ h₁ _ => ?_
    change Follows ts depth s₁ _ ((below >>= _) c.advance)
    exact .bind (hbelow h₁) fun e c₂ s₂ _ h₂ _ => .pure h₂ _
  | none =>
    rw [Parser.prefixed_of_none hop]
    refine .tracked h (.bind (mirrors_primary hexpr hyields h) fun e c₁ s₁ _ h₁ _ => ?_)
    exact follows_calls hexpr hyields _ e h₁ (Nat.le_refl _)

end Operands

/-! ### Expressions -/

section Expressions

variable {ts : List Token} {depth : Nat} {x : Nat → Indexed Expr}

/-- Something one level deeper. The depth is taken back afterwards. -/
lemma Follows.nested {c : Cursor} {s : Reading} {r : Option Expr × Cursor}
    (h : Stands ts depth c s)
    (hx : ∀ s₁, Stands ts (depth + 1) c s₁ → Follows ts (depth + 1) s₁
      (fun n ts s => if maxNesting < s.depth then Indexed.failHere (fun _ => .tooDeep) ts s
        else x n ts s) r) :
    Follows ts depth s (fun n => Indexed.nested (x n)) r := by
  obtain rfl := h.depth
  have hdeeper := hx _ (h.withDepth (s.depth + 1))
  exact Follows.after hdeeper fun s' h' hle => ⟨by
    have hback := h'.withDepth (s'.depth - 1)
    rwa [h'.depth] at hback ⊢, hle⟩

/-- There is a level left. -/
lemma mirrors_nested {p : Parser Expr} (hdepth : depth < maxNesting)
    (hx : Mirrors ts (depth + 1) x p) : Mirrors ts depth (fun n => Indexed.nested (x n)) p := by
  intro c s h
  refine .nested h fun s₁ h₁ => ?_
  obtain ⟨enough, s', hend, hstands⟩ := hx h₁
  have hallowed : ¬ maxNesting < s₁.depth := by
    rw [h₁.depth]
    exact Nat.not_lt.2 hdepth
  refine ⟨enough, s', fun fuel hfuel => ?_, hstands⟩
  simp only [hallowed, if_false]
  exact hend fuel hfuel

/-- There is no level left. -/
lemma mirrors_tooDeep (hdepth : maxNesting ≤ depth) :
    Mirrors ts depth (fun n => Indexed.nested (x n)) Parser.tooDeep := by
  intro c s h
  refine .nested h fun s₁ h₁ => ?_
  have hexceeded : maxNesting < s₁.depth := by
    rw [h₁.depth]
    exact Nat.lt_succ_of_le hdepth
  have hfail : Follows ts (depth + 1) s₁ (fun _ => Indexed.failHere fun _ => .tooDeep)
      (Parser.tooDeep c) := .failHere h₁ _
  obtain ⟨enough, s', hend, hstands⟩ := hfail
  refine ⟨enough, s', fun fuel hfuel => ?_, hstands⟩
  simp only [hexceeded, if_true]
  exact hend fuel hfuel

/-- Operands, where the depth and the levels that are left make up the deepest nesting. -/
lemma mirrors_operand (levels : Nat) (hdepth : depth + levels = maxNesting) :
    Mirrors ts depth Indexed.operand (Parser.operand levels) := by
  induction levels generalizing depth with
  | zero =>
    have htooDeep (x : Nat → Indexed Expr) :
        Mirrors ts depth (fun n => Indexed.nested (x n)) Parser.tooDeep :=
      mirrors_tooDeep (Nat.le_of_eq hdepth.symm)
    have hexpr : Mirrors ts depth (fun n => Indexed.expressionOf n (Indexed.operand n))
        Parser.tooDeep := by
      intro c s h
      exact .tracked h (htooDeep _ h)
    intro c s h
    exact .succ (mirrors_prefixed hexpr (Parser.derives_expression 0) (htooDeep _) h)
  | succ levels ih =>
    have hlt : depth < maxNesting := by omega
    have hbelow : Mirrors ts (depth + 1) Indexed.operand (Parser.operand levels) :=
      ih (by omega)
    have hexpr : Mirrors ts depth (fun n => Indexed.expressionOf n (Indexed.operand n))
        (Parser.operators (Parser.operand levels)) := by
      intro c s h
      exact .tracked h (mirrors_nested hlt (mirrors_operators hbelow) h)
    intro c s h
    exact .succ (mirrors_prefixed hexpr (Parser.derives_expression (levels + 1))
      (mirrors_nested hlt hbelow) h)

/-- Expressions outside all others. -/
lemma mirrors_expression : Mirrors ts 0 Indexed.expression (Parser.expression maxNesting) := by
  have hoperand : Mirrors ts 1 Indexed.operand (Parser.operand 63) := mirrors_operand 63 rfl
  intro c s h
  exact .tracked h (mirrors_nested (by decide) (mirrors_operators hoperand) h)

end Expressions

/-! ### Programs -/

/-- Passes over a closing brace without an opening one, or reads or skips a statement. -/
def Parser.topRound (expr : Parser Expr) : Parser (Option Stmt) := fun c =>
  if c.atSymbol .closeBrace then (some none, (c.report .strayBrace c.span).advance)
  else Parser.statementOrSkip expr c

/-- A program ends, or there is one round and then further ones. -/
lemma Parser.programStatements_eq (expr : Parser Expr) (rounds : Nat) (c : Cursor) :
    programStatements expr (rounds + 1) c =
      if c.atEnd || c.faults.isFull then (some [], c)
      else (topRound expr >>= fun stmt? =>
        programStatements expr rounds >>= fun stmts => pure (stmt?.toList ++ stmts)) c := by
  rw [programStatements_succ, oneStatement_eq]
  split
  · rfl
  · change _ = Parser.andThen _ _ c
    unfold Parser.andThen topRound
    split
    · rfl
    · rfl

/-- A round does not fail. -/
lemma Parser.exists_topRound (expr : Parser Expr) (c : Cursor) :
    ∃ stmt? c₁, topRound expr c = (some stmt?, c₁) := by
  unfold topRound statementOrSkip
  split
  · exact ⟨_, _, rfl⟩
  · rcases statement expr c with ⟨_ | stmt, c₁⟩ <;> exact ⟨_, _, rfl⟩

/-- A round moves on. -/
lemma length_topRound_lt {m : Nat} {expr : Parser Expr}
    (hyields : Placement.any.watch.YieldsExpr m m expr) {c : Cursor} (hend : c.atEnd = false) :
    (Parser.topRound expr c).2.rest.length < c.rest.length := by
  unfold Parser.topRound
  cases hbrace : c.atSymbol .closeBrace with
  | true =>
    have hreported : (c.report .strayBrace c.span).atEnd = false := hend
    exact Cursor.length_advance_lt (Cursor.rest_ne_nil hreported)
  | false => exact length_statementOrSkip_lt hyields hend hbrace

section Programs

variable {ts : List Token} {depth : Nat} {c : Cursor} {s : Reading} {x : Nat → Indexed Expr}
  {expr : Parser Expr} {m : Nat} (hyields : Placement.any.watch.YieldsExpr m m expr)

/-- A closing brace without an opening one is passed over. -/
lemma follows_strayBrace (h : Stands ts depth c s) (hend : c.atEnd = false) :
    Follows ts depth s (fun _ => Indexed.strayBrace)
      (some none, (c.report .strayBrace c.span).advance) := by
  refine .query h.span (.step rfl (Nat.le_refl _) ?_)
  exact .advance (h.report _ _) hend fun s₁ h₁ _ => .pure h₁ none

include hyields

/-- The statements of a program. Every round moves on. -/
lemma follows_topLevel (hexpr : Mirrors ts depth x expr) (rounds : Nat)
    (h : Stands ts depth c s) (hrounds : c.rest.length ≤ rounds) :
    Follows ts depth s (fun n => Indexed.topLevel (x n) n)
      (Parser.programStatements expr rounds c) := by
  induction rounds generalizing x c s with
  | zero => exact absurd hrounds h.not_length_le_zero
  | succ rounds ih =>
    refine .succ (.query h.atEnd (.query h.isFull ?_))
    rw [Parser.programStatements_eq]
    cases hstop : c.atEnd || c.faults.isFull with
    | true => exact .pure h []
    | false =>
      have hend := (Bool.or_eq_false_iff.1 hstop).1
      have hone : Follows ts depth s (fun n => Indexed.atSymbol .closeBrace >>= fun brace =>
          if brace then Indexed.strayBrace else Indexed.statementOrSkip (x (n + 1)) n)
          (Parser.topRound expr c) := by
        refine .query (h.atSymbol .closeBrace) ?_
        unfold Parser.topRound
        cases c.atSymbol .closeBrace with
        | true => exact follows_strayBrace h hend
        | false => exact mirrors_statementOrSkip hexpr.succ h
      rw [if_neg Bool.false_ne_true]
      exact follows_oneRound h hone (length_topRound_lt hyields hend) fun h₁ hless =>
        ih hexpr.succ h₁ (Nat.le_of_lt_succ (Nat.lt_of_lt_of_le hless hrounds))

/-- There are no more statements than tokens that were read. -/
lemma length_topLevel_le (rounds : Nat) (c : Cursor) :
    (Parser.topLevel expr rounds c).1.length + (Parser.topLevel expr rounds c).2.rest.length ≤
      c.rest.length := by
  induction rounds generalizing c with
  | zero => exact Nat.le_of_eq (Nat.zero_add _)
  | succ rounds ih =>
    have heq := Parser.programStatements_eq expr rounds c
    cases hstop : c.atEnd || c.faults.isFull with
    | true =>
      rw [hstop, if_pos rfl] at heq
      obtain ⟨hstmts, hcursor⟩ := Prod.mk.inj heq
      rw [Option.some.inj hstmts, hcursor]
      exact Nat.le_of_eq (Nat.zero_add _)
    | false =>
      have hshorter := length_topRound_lt hyields (Bool.or_eq_false_iff.1 hstop).1
      obtain ⟨stmt?, c₁, hround⟩ := Parser.exists_topRound expr c
      have hless : c₁.rest.length < c.rest.length := by rwa [hround] at hshorter
      rw [hstop, if_neg Bool.false_ne_true] at heq
      change _ = Parser.andThen _ _ c at heq
      rw [Parser.andThen, hround] at heq
      obtain ⟨hstmts, hcursor⟩ := Prod.mk.inj heq
      have hone : stmt?.toList.length ≤ 1 := by cases stmt? <;> simp
      have hothers := ih c₁
      rw [Option.some.inj hstmts, hcursor, List.length_append]
      exact Nat.le_trans (by omega) hless

end Programs

/-- The parser by places reads the program of a list of tokens. -/
lemma follows_program {ts : List Token} {c : Cursor} {s : Reading} (h : Stands ts 0 c s) :
    Follows ts 0 s Indexed.program (some (Parser.program c).1, (Parser.program c).2) := by
  refine .tracked h (.query h.span ?_)
  have hstmts := follows_topLevel (Parser.derives_expression maxNesting) mirrors_expression
    c.rest.length h (Nat.le_refl _)
  let whole (stmts : List Stmt) : Parser Program := fun c₁ =>
    (some ⟨stmts, if stmts.isEmpty then c.span else c.span.merge c₁.previous⟩, c₁)
  refine .bind (p := Parser.programStatements (Parser.expression maxNesting) c.rest.length)
    (g := whole) hstmts fun stmts c₁ s₁ _ h₁ _ => ?_
  change Follows ts 0 s₁ _ (some (Program.mk stmts _), c₁)
  cases hempty : stmts.isEmpty with
  | true => exact .pure h₁ _
  | false => exact .query h₁.previousSpan (.pure h₁ _)

/-- The tokens that are read end with a mark of the end, and at most one more is read than given. -/
lemma Cursor.ended_ofTokens (tokens : List Token) :
    (∃ ts t, (ofTokens tokens).rest = ts ++ [t] ∧ t.kind = .endOfFile) ∧
      (ofTokens tokens).rest.length ≤ tokens.length + 1 := by
  unfold ofTokens
  cases hlast : tokens.getLast? with
  | none => exact ⟨⟨[], _, rfl, rfl⟩, Nat.le_add_left _ _⟩
  | some t =>
    cases hkind : t.kind.isEnd with
    | true =>
      obtain ⟨ts, rfl⟩ := List.getLast?_eq_some_iff.1 hlast
      simp only [hkind, if_true]
      exact ⟨⟨ts, t, rfl, TokenKind.isEnd_iff.1 hkind⟩, Nat.le_succ _⟩
    | false =>
      simp only [hkind, Bool.false_eq_true, if_false]
      exact ⟨⟨tokens, _, rfl, rfl⟩, Nat.le_of_eq (List.length_append ..)⟩

/-- Before anything is read. -/
lemma Stands.start (tokens : List Token) :
    Stands (Cursor.ofTokens tokens).rest 0 (.ofTokens tokens) {} := by
  obtain ⟨⟨ts, t, hrest, hend⟩, -⟩ := Cursor.ended_ofTokens tokens
  refine ⟨rfl, ?_, fun t' ht' => ?_, rfl, rfl, rfl, .start _⟩
  · rw [hrest, List.length_append]
    exact Nat.succ_pos _
  · rw [hrest, List.length_append, List.length_singleton, Nat.add_sub_cancel,
      List.getElem?_concat_length] at ht'
    rw [← Option.some.inj ht']
    exact hend

/-- The parser goes on, on all lists of tokens.

Let the tokens be read by their places, with a mark of the end added if none stands last.  With fuel
enough, no place is outside the list, and the program and the errors are those that the cursor
gives.  In the end there is a token left and the depth is that of the start.  The tokens that were
moved past are those before the last place, each once and in order, and none is a mark of the end;
every round of a loop over statements has moved on; no parser was left at an earlier place or at
another depth than it was entered, whether it succeeded or failed.  There are no more statements
than tokens. -/
theorem parseTokens_goes_on (tokens : List Token) :
    let ts := (Cursor.ofTokens tokens).rest
    ∃ enough s, (∀ fuel, enough ≤ fuel →
        Indexed.program fuel ts {} = .ok (some (parseTokens tokens).1, s)) ∧
      s.faults = (parseTokens tokens).2 ∧ s.depth = 0 ∧ s.place < ts.length ∧
      Fair ts s.place s.marks ∧ (parseTokens tokens).1.stmts.length ≤ tokens.length := by
  intro ts
  obtain ⟨enough, s, hend, hstands, -⟩ := follows_program (.start tokens)
  refine ⟨enough, s, hend, hstands.faults, hstands.depth, hstands.inside, hstands.fair, ?_⟩
  have hcount := length_topLevel_le (Parser.derives_expression maxNesting) ts.length
    (.ofTokens tokens)
  have hleft := List.length_pos_iff.2 hstands.ne_nil
  have hgiven := (Cursor.ended_ofTokens tokens).2
  change (Parser.topLevel (Parser.expression maxNesting) ts.length (.ofTokens tokens)).1.length ≤ _
  change 0 < (Parser.topLevel (Parser.expression maxNesting) ts.length
    (.ofTokens tokens)).2.rest.length at hleft
  omega

/-- A stray brace, a binding without a name and a jump are three rounds, each of which moves on. -/
example :
    let tokens : List Token :=
      [TokenKind.symbol .closeBrace, .keyword .fanya, .symbol .assign, .keyword .vunja].map
        fun k => ⟨k, .synthetic⟩
    ((Indexed.program 4 (Cursor.ofTokens tokens).rest {}).toOption.map fun r =>
      r.2.marks.filterMap fun m =>
        match m with
        | .round a b => some (a, b)
        | _ => none) = some [(0, 1), (1, 3), (3, 4)] := by
  decide +kernel

end Lugha
