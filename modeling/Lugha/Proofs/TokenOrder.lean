import Lugha.Proofs.Tiling

/-!
# Tokens in the order of the text

The tokens of a text stand one after the other, whatever is wrong with the text: each begins
where it does not end before, and ends strictly before the next one begins.  Only a text that is
never closed may end behind a newline, and nothing but the mark of the end follows it.

Tokens in order have a span together, from the beginning of the first to the end of the last.
Merging the spans of the first and of the last tokens of a list gives the span of the list.
-/

namespace Lugha

/-- Tokens that stand one after the other. -/
structure InOrder (ts : List Token) : Prop where
  spans : ∀ t ∈ ts, t.span.first.Before t.span.last
  apart : ts.Pairwise fun t u => t.span.last.Precedes u.span.first

/-- The span from the beginning of the first token to the end of the last one. -/
def Span.ofTokens : List Token → Span
  | [] => .synthetic
  | t :: ts => ⟨t.span.first, (ts.getLastD t).span.last⟩

namespace Span

/-- The span of tokens ends with one of them. -/
lemma exists_last_ofTokens (ts : List Token) (hts : ts ≠ []) :
    ∃ init t, ts = init ++ [t] ∧ (Span.ofTokens ts).last = t.span.last := by
  obtain ⟨init, t, rfl⟩ := (List.eq_nil_or_concat' ts).resolve_left hts
  refine ⟨init, t, rfl, ?_⟩
  cases init with
  | nil => rfl
  | cons u init => simp [Span.ofTokens]

/-- The span of tokens begins with one of them. -/
lemma exists_first_ofTokens (ts : List Token) (hts : ts ≠ []) :
    ∃ t tail, ts = t :: tail ∧ (Span.ofTokens ts).first = t.span.first := by
  cases ts with
  | nil => exact absurd rfl hts
  | cons t tail => exact ⟨t, tail, rfl, rfl⟩

end Span

namespace InOrder

variable {ts us : List Token} {t : Token}

/-- No tokens. -/
lemma nil : InOrder [] := ⟨List.forall_mem_nil _, .nil⟩

/-- A token before others. -/
lemma cons (h : InOrder ts) (hspan : t.span.first.Before t.span.last)
    (hapart : ∀ u ∈ ts, t.span.last.Precedes u.span.first) : InOrder (t :: ts) :=
  ⟨List.forall_mem_cons.2 ⟨hspan, h.spans⟩, .cons hapart h.apart⟩

/-- Some of the tokens. -/
lemma sublist (h : InOrder us) (hts : ts.Sublist us) : InOrder ts :=
  ⟨fun t ht => h.spans t (hts.subset ht), h.apart.sublist hts⟩

/-- The first tokens. -/
lemma left (h : InOrder (ts ++ us)) : InOrder ts := h.sublist (List.sublist_append_left ts us)

/-- The last tokens. -/
lemma right (h : InOrder (ts ++ us)) : InOrder us := h.sublist (List.sublist_append_right ts us)

/-- All tokens but the first. -/
lemma tail (h : InOrder (t :: ts)) : InOrder ts := h.sublist (List.sublist_cons_self t ts)

/-! ### Spans of tokens -/

/-- The span of tokens does not end before it begins. -/
lemma first_before_last (h : InOrder ts) (hts : ts ≠ []) :
    (Span.ofTokens ts).first.Before (Span.ofTokens ts).last := by
  obtain ⟨init, u, hinit, hlast⟩ := Span.exists_last_ofTokens ts hts
  obtain ⟨t, tail, htail, hfirst⟩ := Span.exists_first_ofTokens ts hts
  rw [hfirst, hlast]
  cases init with
  | nil =>
    obtain ⟨rfl, rfl⟩ : t = u ∧ tail = [] := by simpa [htail] using hinit
    exact h.spans t (htail ▸ List.mem_cons_self)
  | cons v init =>
    obtain ⟨rfl, rfl⟩ : t = v ∧ tail = init ++ [u] := by simpa [htail] using hinit
    have hapart := (List.pairwise_cons.1 (htail ▸ h.apart)).1 u (by simp)
    have ht := h.spans t (by simp [htail])
    have hu := h.spans u (by simp [htail])
    exact (ht.trans hapart.before).trans hu

/-- The first of the tokens end before the others begin. -/
lemma last_precedes_first (h : InOrder (ts ++ us)) (hts : ts ≠ []) (hus : us ≠ []) :
    (Span.ofTokens ts).last.Precedes (Span.ofTokens us).first := by
  obtain ⟨init, t, rfl, hlast⟩ := Span.exists_last_ofTokens ts hts
  obtain ⟨u, tail, rfl, hfirst⟩ := Span.exists_first_ofTokens us hus
  rw [hlast, hfirst]
  exact (List.pairwise_append.1 h.apart).2.2 t (by simp) u List.mem_cons_self

end InOrder

namespace Span

/-- The span of tokens begins with the first of them. -/
lemma first_ofTokens_append {ts : List Token} (hts : ts ≠ []) (us : List Token) :
    (ofTokens (ts ++ us)).first = (ofTokens ts).first := by
  cases ts with
  | nil => exact absurd rfl hts
  | cons t ts => rfl

/-- The span of tokens ends with the last of them. -/
lemma last_ofTokens_append (ts : List Token) {us : List Token} (hus : us ≠ []) :
    (ofTokens (ts ++ us)).last = (ofTokens us).last := by
  obtain ⟨init, u, rfl, hlast⟩ := exists_last_ofTokens us hus
  obtain ⟨init', u', heq, hlast'⟩ := exists_last_ofTokens (ts ++ (init ++ [u])) (by simp)
  rw [← List.append_assoc, List.append_singleton_inj] at heq
  rw [hlast, hlast', heq.2]

/-- The span of some tokens in a row lies in the span of all. -/
lemma ofTokens_inside {us : List Token} (ts vs : List Token) (h : InOrder (ts ++ (us ++ vs)))
    (hus : us ≠ []) :
    (ofTokens (ts ++ (us ++ vs))).first.Before (ofTokens us).first ∧
      (ofTokens us).last.Before (ofTokens (ts ++ (us ++ vs))).last := by
  have hne : us ++ vs ≠ [] := List.append_ne_nil_of_left_ne_nil hus vs
  constructor
  · cases ts with
    | nil => exact first_ofTokens_append hus vs ▸ .refl _
    | cons t ts =>
      rw [← first_ofTokens_append hus vs]
      have hfirst := h.left.first_before_last (List.cons_ne_nil t ts)
      exact hfirst.trans (h.last_precedes_first (List.cons_ne_nil t ts) hne).before
  · rw [last_ofTokens_append ts hne]
    cases vs with
    | nil => exact (List.append_nil us).symm ▸ .refl _
    | cons v vs =>
      rw [last_ofTokens_append us (List.cons_ne_nil v vs)]
      have hlast := h.right.right.first_before_last (List.cons_ne_nil v vs)
      exact (h.right.last_precedes_first hus (List.cons_ne_nil v vs)).before.trans hlast

/-- The span of the first and the span of the last of some tokens give the span of all. -/
lemma merge_ofTokens {ts us vs : List Token} (h : InOrder vs) (hts : ts ≠ []) (hus : us ≠ [])
    (hfirst : ts <+: vs) (hlast : us <:+ vs) :
    (ofTokens ts).merge (ofTokens us) = ofTokens vs := by
  obtain ⟨ts', rfl⟩ := hfirst
  obtain ⟨us', heq⟩ := hlast
  have hhead := first_ofTokens_append hts ts'
  have hend := last_ofTokens_append us' hus
  have hall : InOrder (us' ++ (us ++ [])) := by simpa [heq] using h
  have hbefore := (ofTokens_inside us' [] hall hus).1
  have hafter := (ofTokens_inside [] ts' h hts).2
  rw [List.append_nil, heq, hhead] at hbefore
  rw [List.nil_append] at hafter
  rw [heq] at hend
  rw [hend] at hafter
  rw [merge, Position.earlier_eq_left hbefore, Position.later_eq_right hafter, ← hhead, ← hend]

end Span

/-! ### The tokens of a text -/

/-- Skipping does not lead back. -/
lemma skipGap_moves (faults : ErrorList Fault) (g : Gap) (p : Position) (cs : List Char)
    (hp : 0 < p.column) :
    p.Before (skipGap faults g p cs).2.here ∧ 0 < (skipGap faults g p cs).2.here.column := by
  fun_induction skipGap faults g p cs with
  | case1 p rest ih | case2 p rest ih | case6 _ p rest ih =>
    obtain ⟨hbefore, hcolumn⟩ := ih (Position.column_past_pos hp _)
    exact ⟨(p.before_past _).trans hbefore, hcolumn⟩
  | case3 p c rest _ _ _ ih | case5 p c rest ih | case7 _ p c rest _ ih =>
    obtain ⟨hbefore, hcolumn⟩ := ih (Position.column_past_pos hp [c])
    exact ⟨(p.before_past [c]).trans hbefore, hcolumn⟩
  | case4 | case8 | case9 => exact ⟨.refl _, hp⟩

/-- Reading a text between quotes does not lead back.  If anything is left, the last character
read is the quote that closes the text. -/
lemma scanText_moves {quote : Char} (hquote : quote ≠ '\n') (opened : Position)
    (faults : ErrorList Fault) (read : List Char) (p : Position) (cs : List Char)
    (hp : 0 < p.column) :
    p.Before (scanText quote opened faults read p cs).after.here ∧
      0 < (scanText quote opened faults read p cs).after.here.column ∧
      ((scanText quote opened faults read p cs).after.rest = [] ∨
        1 < (scanText quote opened faults read p cs).after.here.column) := by
  fun_induction scanText quote opened faults read p cs with
  | case1 => exact ⟨.refl _, hp, .inl rfl⟩
  | case2 faults read p =>
    exact ⟨p.before_past ['\\'], Position.column_past_pos hp ['\\'], .inl rfl⟩
  | case3 faults read p c rest q d _ ih | case4 faults read p c rest q _ ih =>
    obtain ⟨hbefore, hrest⟩ := ih (Position.column_past_pos hp ['\\', c])
    exact ⟨(p.before_past ['\\', c]).trans hbefore, hrest⟩
  | case5 faults read p rest =>
    exact ⟨p.before_past [quote], Position.column_past_pos hp [quote],
      .inr (Position.one_lt_column_step hp hquote)⟩
  | case6 faults read p c rest _ _ _ ih =>
    obtain ⟨hbefore, hrest⟩ := ih (Position.column_past_pos hp [c])
    exact ⟨(p.before_past [c]).trans hbefore, hrest⟩

/-- Behind a written token, the column is not the first one. -/
lemma TokenKind.Written.one_lt_column {k : TokenKind} {w : List Char} (h : k.Written w)
    {p : Position} (hp : 0 < p.column) : 1 < (p.past w).column := by
  rw [← List.dropLast_append_getLast h.ne_nil, Position.past_append]
  exact Position.one_lt_column_step (Position.column_past_pos hp _)
    (h.getLast_ne_newline _ (List.getLast?_eq_some_getLast h.ne_nil))

/-- Reading a token leads on, and to the beginning of a line only at the end of the text or past
a character that begins no token. -/
lemma scanToken_moves (faults : ErrorList Fault) (p : Position) (c : Char) (rest : List Char)
    (hp : 0 < p.column) :
    p.Precedes (scanToken faults p c rest).after.here ∧
      0 < (scanToken faults p c rest).after.here.column ∧
      ((scanToken faults p c rest).kind?.isSome →
        (scanToken faults p c rest).after.rest = [] ∨
          1 < (scanToken faults p c rest).after.here.column) := by
  have hwritten {k : TokenKind} {w : List Char} (h : k.Written w) :
      p.Precedes (p.past w) ∧ 0 < (p.past w).column ∧ 1 < (p.past w).column :=
    ⟨p.precedes_past h.ne_nil, Position.column_past_pos hp w, h.one_lt_column hp⟩
  unfold scanToken
  split
  · next hquote =>
    have hnewline : c ≠ '\n' := by
      rcases hquote with rfl | rfl <;> decide
    obtain ⟨hbefore, hcolumn, hrest⟩ :=
      scanText_moves hnewline p faults [] (p.step c) rest (Position.column_past_pos hp [c])
    exact ⟨(p.precedes_step c).trans_before hbefore, hcolumn, fun _ => hrest⟩
  · split
    · next hdigit =>
      obtain ⟨hprecedes, hpos, hcolumn⟩ := hwritten (written_of_scanNumber hdigit rest).2.1
      exact ⟨hprecedes, hpos, fun _ => .inr hcolumn⟩
    · split
      · next hstart =>
        obtain ⟨hprecedes, hpos, hcolumn⟩ :=
          hwritten (written_wordKind hstart (mem_takeWhile_of_class isNamePart rest))
        exact ⟨hprecedes, hpos, fun _ => .inr hcolumn⟩
      · split
        · next s left _ =>
          obtain ⟨hprecedes, hpos, hcolumn⟩ := hwritten (.symbol s)
          exact ⟨hprecedes, hpos, fun _ => .inr hcolumn⟩
        · exact ⟨p.precedes_step c, Position.column_past_pos hp [c], fun hsome => by cases hsome⟩

/-- Reading a text between quotes gives no mark of the end. -/
lemma scanText_kind_ne (quote : Char) (opened : Position) (faults : ErrorList Fault)
    (read : List Char) (p : Position) (cs : List Char) :
    (scanText quote opened faults read p cs).kind? ≠ some .endOfFile := by
  fun_induction scanText quote opened faults read p cs <;> simp_all

/-- Reading a token gives no mark of the end. -/
lemma scanToken_kind_ne (faults : ErrorList Fault) (p : Position) (c : Char) (rest : List Char) :
    (scanToken faults p c rest).kind? ≠ some .endOfFile := by
  have hwritten {k : TokenKind} {w : List Char} (h : k.Written w) : some k ≠ some .endOfFile :=
    fun heq => h.ne_endOfFile (Option.some.inj heq)
  unfold scanToken
  split
  · exact scanText_kind_ne c p faults [] (p.step c) rest
  · split
    · next hdigit => exact hwritten (written_of_scanNumber hdigit rest).2.1
    · split
      · next hstart =>
        exact hwritten (written_wordKind hstart (mem_takeWhile_of_class isNamePart rest))
      · split
        · next s left _ => exact hwritten (.symbol s)
        · simp

/-- The tokens of a text stand in order before the mark of the end, which is the only one. -/
lemma inOrder_scanFrom (before : ErrorList Fault) (p : Position) (cs : List Char)
    (hp : 0 < p.column) :
    ∃ ts q, (scanFrom before p cs).1 = ts ++ [endToken q] ∧ InOrder ts ∧
      ∀ t ∈ ts, p.Before t.span.first ∧ t.kind ≠ .endOfFile := by
  fun_induction scanFrom before p cs with
  | case1 before p cs faults q h => exact ⟨[], q, rfl, .nil, List.forall_mem_nil _⟩
  | case2 before p cs faults q c rest h hfull =>
    exact ⟨[], q, rfl, .nil, List.forall_mem_nil _⟩
  | case3 before p cs faults q c rest h hfull hless s tokens after heq kind hkind ih =>
    have hskip := skipGap_moves before .blank p cs hp
    rw [h] at hskip
    obtain ⟨hpq, hq⟩ := hskip
    obtain ⟨hprecedes, hpos, hcolumn⟩ := scanToken_moves faults q c rest hq
    obtain ⟨ts, r, hts, hordered, hafter⟩ := ih hpos
    rw [heq] at hts
    refine ⟨⟨kind, .upTo q s.after.here⟩ :: ts, r, congrArg _ hts,
      hordered.cons hprecedes.before_back fun u hu => ?_, ?_⟩
    · rcases hcolumn (Option.isSome_iff_exists.2 ⟨kind, hkind⟩) with hnil | hcolumn
      · -- no token follows one that goes on to the end of the text
        have hend : scanFrom s.faults s.after.here [] = ([endToken s.after.here], s.faults) :=
          scanFrom_of_end (by simp [skipGap])
        rw [show s.after.rest = [] from hnil, hend] at heq
        obtain rfl : ts = [] := by
          cases heq
          simpa using congrArg List.length hts
        cases hu
      · exact (Position.back_precedes hcolumn).trans_before (hafter u hu).1
    · have hmark : kind ≠ .endOfFile := fun heq =>
        scanToken_kind_ne faults q c rest (hkind.trans (congrArg some heq))
      refine List.forall_mem_cons.2 ⟨⟨hpq, hmark⟩, fun t ht => ?_⟩
      exact ⟨hpq.trans (hprecedes.before.trans (hafter t ht).1), (hafter t ht).2⟩
  | case4 before p cs faults q c rest h hfull hless s tokens after heq hkind ih =>
    have hskip := skipGap_moves before .blank p cs hp
    rw [h] at hskip
    obtain ⟨hpq, hq⟩ := hskip
    obtain ⟨hprecedes, hpos, -⟩ := scanToken_moves faults q c rest hq
    obtain ⟨ts, r, hts, hordered, hafter⟩ := ih hpos
    rw [heq] at hts
    refine ⟨ts, r, hts, hordered, fun t ht => ?_⟩
    exact ⟨hpq.trans (hprecedes.before.trans (hafter t ht).1), (hafter t ht).2⟩

end Lugha
