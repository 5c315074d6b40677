import Lugha.Proofs.Layout

/-!
# Reading tokens back from a layout

The tokens of a text can be read without a fault exactly if the text is a layout of them.
From left to right, a layout is read piece by piece: filler is skipped, a written token is
read up to its end, and what closes the text is skipped.  From right to left, each reader
is shown to pass over a piece of the kind that it looks for, unless it reports a fault.

Reports are never taken back, so a text that is read without a fault is read so from every
place on.  `ErrorList.Extends` says what a reader may do to an error list.
-/

namespace Lugha

/-! ### Reading a layout -/

section Forward

variable (faults : ErrorList Fault)

/-- A line comment is skipped with its newline. -/
lemma skipGap_line {note : List Char} (hnote : '\n' ∉ note) (p : Position) (rest : List Char) :
    skipGap faults .lineComment p (note ++ '\n' :: rest) =
      skipGap faults .blank (p.past (note ++ ['\n'])) rest := by
  induction note generalizing p with
  | nil => simp [skipGap_lineComment]
  | cons c note ih =>
    obtain ⟨hc, hnote⟩ := not_or.1 (mt List.mem_cons.2 hnote)
    simp [skipGap_lineComment, Ne.symm hc, ih hnote]

/-- A comment that is open at the end of the text ends with it. -/
lemma skipGap_openLine {note : List Char} (hnote : '\n' ∉ note) (p : Position) :
    skipGap faults .lineComment p note = (faults, ⟨p.past note, []⟩) := by
  induction note generalizing p with
  | nil => simp [skipGap]
  | cons c note ih =>
    obtain ⟨hc, hnote⟩ := not_or.1 (mt List.mem_cons.2 hnote)
    simp [skipGap_lineComment, Ne.symm hc, ih hnote]

/-- A block comment is skipped up to the first `*/`. -/
lemma skipGap_block {note : List Char} (hnote : ¬ ['*', '/'] <:+: note) (opened p : Position)
    (rest : List Char) :
    skipGap faults (.blockComment opened) p (note ++ '*' :: '/' :: rest) =
      skipGap faults .blank (p.past (note ++ ['*', '/'])) rest := by
  induction note generalizing p with
  | nil => simp [skipGap]
  | cons c note ih =>
    have hopen : ∀ more, c :: (note ++ '*' :: '/' :: rest) ≠ '*' :: '/' :: more := by
      intro more heq
      cases note with
      | nil => simp at heq
      | cons d note =>
        obtain ⟨rfl, rfl, -⟩ : c = '*' ∧ d = '/' ∧ _ := by simpa using heq
        exact hnote ⟨[], note, rfl⟩
    have hrest : ¬ ['*', '/'] <:+: note := fun h => hnote (h.trans (List.suffix_cons c note).isInfix)
    rw [List.cons_append, skipGap, ih hrest]
    · rfl
    · intro more hstar hslash
      exact hopen more (by rw [hstar, hslash])

/-- Filler is skipped. -/
lemma skipGap_filler {gap : List Char} (h : Filler gap) (p : Position) (rest : List Char) :
    skipGap faults .blank p (gap ++ rest) = skipGap faults .blank (p.past gap) rest := by
  induction h generalizing p with
  | nil => rfl
  | @blank c gap hc _ ih =>
    have hslash : c ≠ '/' := by
      rintro rfl
      cases hc
    simp [skipGap, hslash, hc, ih]
  | @line note gap hnote _ ih =>
    simp [skipGap, skipGap_line faults hnote, ih, Position.past_append]
  | @block note gap hnote _ ih =>
    simp [skipGap, skipGap_block faults hnote, ih, Position.past_append]

/-- What closes a text is skipped to the end. -/
lemma skipGap_closing {cs : List Char} (h : Closing cs) (p : Position) :
    skipGap faults .blank p cs = (faults, ⟨p.past cs, []⟩) := by
  cases h with
  | filler h =>
    have hskip := skipGap_filler faults h p []
    rwa [List.append_nil] at hskip
  | @line gap note h hnote =>
    rw [skipGap_filler faults h, skipGap, skipGap_openLine faults hnote, Position.past_append]
    rfl

/-- Skipping stops before a character that is neither blank nor the beginning of a comment. -/
lemma skipGap_stop {c : Char} {cs : List Char} (hblank : isBlank c = false)
    (hcomment : c = '/' → ∀ d ∈ cs.head?, Symbol.slash.joins d = false) (p : Position) :
    skipGap faults .blank p (c :: cs) = (faults, ⟨p, c :: cs⟩) := by
  rw [skipGap]
  · simp [hblank]
  · rintro rest rfl rfl
    cases hcomment rfl '/' rfl
  · rintro rest rfl rfl
    cases hcomment rfl '*' rfl

/-- Only one token begins with a slash. -/
lemma TokenKind.Written.eq_slash {k : TokenKind} {w cs : List Char} (h : k.Written w)
    (hw : w = '/' :: cs) : k = .symbol .slash ∧ cs = [] := by
  cases h with
  | name hstart =>
    cases hw
    cases hstart
  | keyword k => cases k <;> cases hw
  | symbol s =>
    cases s <;> cases hw
    exact ⟨rfl, rfl⟩
  | whole hc | fraction hc =>
    cases hw
    cases hc
  | text hquote =>
    cases hw
    simp at hquote

/-- Nothing is skipped where a token begins. -/
lemma skipGap_written {k : TokenKind} {w rest : List Char} (hw : k.Written w)
    (hends : k.EndsBefore w rest) (p : Position) :
    skipGap faults .blank p (w ++ rest) = (faults, ⟨p, w ++ rest⟩) := by
  obtain ⟨c, cs, rfl, hwhite⟩ := hw.head_not_isWhite
  rw [List.cons_append]
  refine skipGap_stop faults ?_ ?_ p
  · refine Bool.eq_false_iff.2 fun hblank => ?_
    rw [isWhite_of_isBlank hblank] at hwhite
    cases hwhite
  · rintro rfl
    obtain ⟨rfl, rfl⟩ := hw.eq_slash rfl
    exact hends

/-- The characters of a class up to the first one of another class. -/
lemma takeWhile_append_eq {p : Char → Bool} {cs rest : List Char} (hcs : ∀ c ∈ cs, p c)
    (hrest : ∀ c ∈ rest.head?, p c = false) :
    (cs ++ rest).takeWhile p = cs ∧ (cs ++ rest).dropWhile p = rest := by
  rw [List.takeWhile_append_of_pos hcs, List.dropWhile_append_of_pos hcs]
  cases rest with
  | nil => simp
  | cons c rest => simp [hrest c rfl]

/-- The escapes are those that the reader knows. -/
lemma escape?_of_mem {e c : Char} (h : (e, c) ∈ escapes) : escape? e = some c := by
  simp only [escapes, List.mem_cons, Prod.mk.injEq, List.not_mem_nil, or_false] at h
  rcases h with ⟨rfl, rfl⟩ | ⟨rfl, rfl⟩ | ⟨rfl, rfl⟩ | ⟨rfl, rfl⟩ | ⟨rfl, rfl⟩ | ⟨rfl, rfl⟩ <;> rfl

/-- A text between quotes is read up to the quote that closes it. -/
lemma scanText_escaped {quote : Char} (hquote : quote ≠ '\\') {cs ws : List Char}
    (h : Escaped quote cs ws) (opened p : Position) (read rest : List Char) :
    scanText quote opened faults read p (ws ++ quote :: rest) =
      ⟨some (.text (String.ofList (read.reverse ++ cs))), faults,
        ⟨p.past (ws ++ [quote]), rest⟩⟩ := by
  induction h generalizing p read with
  | nil => simp [scanText, hquote]
  | @plain c cs ws hc hclose _ ih => simp [scanText, hc, hclose, ih]
  | @escape e c cs ws he _ ih => simp [scanText, escape?_of_mem he, ih]

/-- The first characters of names are neither quotes nor digits. -/
lemma isNameStart_spec {c : Char} (h : isNameStart c) :
    ¬ (c = '"' ∨ c = '\'') ∧ isDigit c = false := by
  refine ⟨?_, Bool.eq_false_iff.2 fun hdigit => ?_⟩
  · rintro (rfl | rfl) <;> cases h
  · simp only [isNameStart, isDigit, Bool.or_eq_true, Bool.and_eq_true, decide_eq_true_eq,
      beq_iff_eq, Char.le_def, UInt32.le_iff_toNat_le] at h hdigit
    have hnine : c.val.toNat ≤ 57 := hdigit.2
    rcases h with (⟨h, -⟩ | ⟨h, -⟩) | rfl
    · exact absurd (Nat.le_trans h hnine) (by decide)
    · exact absurd (Nat.le_trans h hnine) (by decide)
    · exact absurd hnine (by decide)

/-- Digits are no quotes. -/
lemma isDigit_spec {c : Char} (h : isDigit c) : ¬ (c = '"' ∨ c = '\'') := by
  rintro (rfl | rfl) <;> cases h

/-- A word is read up to its end. -/
lemma scanToken_word {c : Char} {cs rest : List Char} (hstart : isNameStart c)
    (hparts : ∀ d ∈ cs, isNamePart d) (hends : ∀ d ∈ rest.head?, isNamePart d = false)
    (p : Position) :
    scanToken faults p c (cs ++ rest) =
      ⟨some (wordKind (c :: cs)), faults, ⟨p.past (c :: cs), rest⟩⟩ := by
  obtain ⟨hquote, hdigit⟩ := isNameStart_spec hstart
  obtain ⟨htake, hdrop⟩ := takeWhile_append_eq hparts hends
  simp [scanToken, hquote, hdigit, hstart, htake, hdrop]

/-- Reserved words are read as such. -/
lemma wordKind_keyword (k : Keyword) : wordKind k.text.toList = .keyword k := by
  cases k <;> rfl

/-- Words that are not reserved are read as names. -/
lemma wordKind_name {w : List Char} (h : ∀ k : Keyword, k.text.toList ≠ w) :
    wordKind w = .name (String.ofList w) := by
  have hnone : Keyword.ofText? (String.ofList w) = none := by
    refine List.find?_eq_none.2 fun k _ hk => h k ?_
    rw [beq_iff_eq.1 hk, String.toList_ofList]
  rw [wordKind, hnone]

/-- Reserved words are words. -/
lemma Keyword.text_spec (k : Keyword) :
    ∃ c cs, k.text.toList = c :: cs ∧ isNameStart c ∧ ∀ d ∈ cs, isNamePart d := by
  cases k <;> exact ⟨_, _, rfl, by decide, List.all_eq_true.1 (by decide)⟩

/-- A sign is read up to its end. -/
lemma scanToken_symbol (s : Symbol) {rest : List Char}
    (hends : ∀ c ∈ rest.head?, s.joins c = false) (p : Position) :
    ∃ c cs, s.text.toList = c :: cs ∧ scanToken faults p c (cs ++ rest) =
      ⟨some (.symbol s), faults, ⟨p.past s.text.toList, rest⟩⟩ := by
  cases s with
  | assign | bang | less | greater =>
    cases rest with
    | nil => exact ⟨_, _, rfl, rfl⟩
    | cons c rest =>
      have hc : c ≠ '=' := by
        rintro rfl
        cases hends '=' rfl
      simp [Symbol.text, scanToken, symbol?, isDigit, isNameStart, hc]
  | _ => exact ⟨_, _, rfl, rfl⟩

/-- A number without a fraction is read up to its end. -/
lemma scanNumber_whole {c : Char} {cs rest : List Char} (hcs : ∀ d ∈ cs, isDigit d)
    (hends : ∀ d ∈ rest.head?, isDigit d = false)
    (hpoint : ∀ d, ['.', d] <+: rest → isDigit d = false) :
    scanNumber c (cs ++ rest) = (.number (decimalValue (c :: cs) []), c :: cs, rest) := by
  obtain ⟨htake, hdrop⟩ := takeWhile_append_eq hcs hends
  have hfraction : fraction rest = [] := by
    unfold fraction
    split
    · next more =>
      cases more with
      | nil => rfl
      | cons d more => simp [hpoint d ⟨more, rfl⟩]
    · rfl
  simp [scanNumber, htake, hdrop, hfraction]

/-- A number with a fraction is read up to its end. -/
lemma scanNumber_fraction {c d : Char} {cs ds rest : List Char} (hcs : ∀ d ∈ cs, isDigit d)
    (hd : isDigit d) (hds : ∀ d ∈ ds, isDigit d) (hends : ∀ d ∈ rest.head?, isDigit d = false) :
    scanNumber c (cs ++ '.' :: d :: (ds ++ rest)) =
      (.number (decimalValue (c :: cs) (d :: ds)), c :: (cs ++ '.' :: d :: ds), rest) := by
  have hpoint : ∀ x ∈ ('.' :: d :: (ds ++ rest)).head?, isDigit x = false := by
    rintro x ⟨⟩
    rfl
  obtain ⟨htake, hdrop⟩ := takeWhile_append_eq hcs hpoint
  obtain ⟨htake', -⟩ := takeWhile_append_eq hds hends
  simp [scanNumber, htake, hdrop, fraction, hd, htake']

/-- A written token is read up to its end. -/
lemma scanToken_written {k : TokenKind} {w rest : List Char} (hw : k.Written w)
    (hends : k.EndsBefore w rest) (p : Position) :
    ∃ c cs, w = c :: cs ∧
      scanToken faults p c (cs ++ rest) = ⟨some k, faults, ⟨p.past w, rest⟩⟩ := by
  cases hw with
  | @name c cs hstart hparts hfree =>
    refine ⟨c, cs, rfl, ?_⟩
    rw [scanToken_word faults hstart hparts hends, wordKind_name hfree]
  | keyword k =>
    obtain ⟨c, cs, htext, hstart, hparts⟩ := k.text_spec
    refine ⟨c, cs, htext, ?_⟩
    rw [scanToken_word faults hstart hparts hends, ← htext, wordKind_keyword]
  | symbol s => exact scanToken_symbol faults s hends p
  | @whole c cs hc hcs =>
    refine ⟨c, cs, rfl, ?_⟩
    have hpoint : '.' ∉ c :: cs := by
      intro hmem
      rcases List.mem_cons.1 hmem with rfl | hmem
      · cases hc
      · cases hcs _ hmem
    have hnumber := scanNumber_whole (c := c) hcs hends.1 (hends.2 hpoint)
    simp [scanToken, isDigit_spec hc, hc, hnumber]
  | @fraction c d cs ds hc hcs hd hds =>
    refine ⟨c, _, rfl, ?_⟩
    have hnumber := scanNumber_fraction (c := c) hcs hd hds hends.1
    simp [scanToken, isDigit_spec hc, hc, hnumber]
  | @text quote cs ws hquote h =>
    refine ⟨quote, _, rfl, ?_⟩
    have hbackslash : quote ≠ '\\' := by
      rcases hquote with rfl | rfl <;> decide
    have htext := scanText_escaped faults hbackslash h p (p.step quote) [] rest
    simpa [scanToken, hquote] using htext

end Forward

/-! ### The loop over all tokens -/

/-- Reading ends with the text. -/
lemma scanFrom_of_end {before faults : ErrorList Fault} {p q : Position} {cs : List Char}
    (h : skipGap before .blank p cs = (faults, ⟨q, []⟩)) :
    scanFrom before p cs = ([endToken q], faults) := by
  rw [scanFrom]
  split <;> simp_all

/-- One token is read, and then those after it. -/
lemma scanFrom_of_token {before faults after : ErrorList Fault} {p q q' : Position}
    {cs rest rest' : List Char} {c : Char} {k : TokenKind}
    (h : skipGap before .blank p cs = (faults, ⟨q, c :: rest⟩)) (hfull : faults.isFull = false)
    (htoken : scanToken faults q c rest = ⟨some k, after, ⟨q', rest'⟩⟩) :
    scanFrom before p cs =
      (⟨k, .upTo q q'⟩ :: (scanFrom after q' rest').1, (scanFrom after q' rest').2) := by
  rw [scanFrom]
  split <;> simp_all

/-- The tokens of a layout are read without a fault. -/
lemma LaidOut.scanFrom {ks : List TokenKind} {cs : List Char} (h : LaidOut ks cs) (p : Position) :
    (Lugha.scanFrom .empty p cs).1.map (·.kind) = ks ++ [.endOfFile] ∧
      (Lugha.scanFrom .empty p cs).2 = .empty := by
  induction h generalizing p with
  | done h =>
    rw [scanFrom_of_end (skipGap_closing .empty h p)]
    exact ⟨rfl, rfl⟩
  | @token k ks gap w rest hgap hw hends _ ih =>
    obtain ⟨c, cs, rfl, htoken⟩ := scanToken_written .empty hw hends (p.past gap)
    have hskip := skipGap_filler .empty hgap p (c :: cs ++ rest)
    rw [skipGap_written .empty hw hends] at hskip
    rw [scanFrom_of_token hskip rfl htoken]
    obtain ⟨hkinds, hfaults⟩ := ih ((p.past gap).past (c :: cs))
    exact ⟨congrArg (k :: ·) hkinds, hfaults⟩

/-! ### Reports are never taken back -/

/-- An error list after further reports, if there were any. -/
def ErrorList.Extends {ε : Type} (fs es : ErrorList ε) : Prop :=
  fs = es ∨ es.total < fs.total

namespace ErrorList.Extends

variable {ε : Type} {es fs gs : ErrorList ε}

/-- No reports. -/
lemma refl (es : ErrorList ε) : es.Extends es := .inl rfl

/-- Reports after reports. -/
lemma trans (h : gs.Extends fs) (h' : fs.Extends es) : gs.Extends es := by
  rcases h with rfl | h
  · exact h'
  · rcases h' with rfl | h'
    · exact .inr h
    · exact .inr (Nat.lt_trans h' h)

/-- After a report the list is another one. -/
lemma ne_of_push {e : ε} (h : gs.Extends (es.push e)) : gs ≠ es := by
  have hlt : es.total < (es.push e).total := Nat.lt_succ_self _
  rcases h with rfl | h
  · exact fun heq => absurd hlt (by rw [heq]; exact Nat.lt_irrefl _)
  · exact fun heq => absurd (Nat.lt_trans hlt h) (by rw [heq]; exact Nat.lt_irrefl _)

/-- One report. -/
lemma push (es : ErrorList ε) (e : ε) : (es.push e).Extends es :=
  .inr (Nat.lt_succ_self _)

/-- If nothing is reported in the end, nothing was reported before. -/
lemma eq_of_eq (h : gs.Extends fs) (h' : fs.Extends es) (heq : gs = es) : fs = es := by
  rcases h with rfl | h
  · exact heq
  · rcases h' with rfl | h'
    · rfl
    · subst heq
      omega

end ErrorList.Extends

/-- Skipping may report faults. -/
lemma skipGap_extends (faults : ErrorList Fault) (g : Gap) (p : Position) (cs : List Char) :
    (skipGap faults g p cs).1.Extends faults := by
  fun_induction skipGap faults g p cs with
  | case8 => exact .push _ _
  | case4 | case9 => exact .refl _
  | _ => assumption

/-- Reading a text between quotes may report faults. -/
lemma scanText_extends (quote : Char) (opened : Position) (faults : ErrorList Fault)
    (read : List Char) (p : Position) (cs : List Char) :
    (scanText quote opened faults read p cs).faults.Extends faults := by
  fun_induction scanText quote opened faults read p cs with
  | case1 | case2 => exact .push _ _
  | case4 _ _ _ _ _ _ _ ih => exact ih.trans (.push _ _)
  | case5 => exact .refl _
  | case3 | case6 => assumption

/-- Reading a token may report faults. -/
lemma scanToken_extends (faults : ErrorList Fault) (p : Position) (c : Char) (rest : List Char) :
    (scanToken faults p c rest).faults.Extends faults := by
  unfold scanToken
  split
  · exact scanText_extends ..
  · split
    · exact .refl _
    · split
      · exact .refl _
      · split
        · exact .refl _
        · exact .push _ _

/-- Reading tokens may report faults. -/
lemma scanFrom_extends (before : ErrorList Fault) (p : Position) (cs : List Char) :
    (scanFrom before p cs).2.Extends before := by
  fun_induction scanFrom before p cs with
  | case1 before p cs faults q h =>
    have hskip := skipGap_extends before .blank p cs
    rw [h] at hskip
    exact hskip
  | case2 before p cs faults q c rest h hfull =>
    have hskip := skipGap_extends before .blank p cs
    rw [h] at hskip
    exact hskip
  | case3 before p cs faults q c rest h hfull hless s tokens after heq kind hkind ih =>
    have hskip := skipGap_extends before .blank p cs
    rw [h] at hskip
    rw [heq] at ih
    exact (ih.trans (scanToken_extends faults q c rest)).trans hskip
  | case4 before p cs faults q c rest h hfull hless s tokens after heq hkind ih =>
    have hskip := skipGap_extends before .blank p cs
    rw [h] at hskip
    rw [heq] at ih
    exact (ih.trans (scanToken_extends faults q c rest)).trans hskip

/-- Where no malformed token is counted, none was reported. -/
lemma scan_eq_empty {text : String} (h : (scan text).2.total = 0) : (scan text).2 = .empty := by
  rcases scanFrom_extends .empty .origin text.toList with heq | hlt
  · exact heq
  · exact absurd h (Nat.ne_of_gt (Nat.zero_lt_of_lt hlt))

/-! ### What was read is a layout -/

/-- A text that begins with filler and ends with the given rest. If nothing is left, a line
comment may be open. -/
def Skipped (cs rest : List Char) : Prop :=
  ∃ gap, cs = gap ++ rest ∧ (Filler gap ∨ rest = [] ∧ Closing gap)

/-- Filler may stand before what is skipped. -/
lemma Skipped.filler {gap cs rest : List Char} (h : Skipped cs rest) (hgap : Filler gap) :
    Skipped (gap ++ cs) rest := by
  obtain ⟨gap', rfl, hgap'⟩ := h
  refine ⟨gap ++ gap', (List.append_assoc ..).symm, ?_⟩
  rcases hgap' with hgap' | ⟨hrest, hclosing⟩
  · exact .inl (hgap.append hgap')
  · exact .inr ⟨hrest, hgap.closing hclosing⟩

/-- What may stand between a place in the given gap and the given rest. -/
def Gap.Passes (cs rest : List Char) : Gap → Prop
  | .blank => Skipped cs rest
  | .lineComment =>
    '\n' ∉ cs ∧ rest = [] ∨
      ∃ note tail, '\n' ∉ note ∧ cs = note ++ '\n' :: tail ∧ Skipped tail rest
  | .blockComment _ =>
    ∃ note tail, ¬ ['*', '/'] <:+: note ∧ cs = note ++ '*' :: '/' :: tail ∧ Skipped tail rest

/-- Without a report, skipping passes over filler and stops before a token. -/
lemma skipGap_passes (faults : ErrorList Fault) (g : Gap) (p : Position) (cs : List Char)
    (h : (skipGap faults g p cs).1 = faults) :
    g.Passes cs (skipGap faults g p cs).2.rest ∧
      ∀ c rest, (skipGap faults g p cs).2.rest = c :: rest →
        isBlank c = false ∧ (c = '/' → ∀ d ∈ rest.head?, Symbol.slash.joins d = false) := by
  fun_induction skipGap faults g p cs with
  | case1 p rest ih =>
    obtain ⟨hpasses, hstop⟩ := ih h
    refine ⟨?_, hstop⟩
    rcases hpasses with ⟨hnote, hnil⟩ | ⟨note, tail, hnote, hrest, htail⟩
    · exact ⟨'/' :: '/' :: rest, by rw [hnil, List.append_nil], .inr ⟨hnil, .line .nil hnote⟩⟩
    · have hskipped := htail.filler (.line hnote .nil)
      subst hrest
      rw [Gap.Passes]
      simpa only [List.cons_append, List.append_assoc, List.nil_append] using hskipped
  | case2 p rest ih =>
    obtain ⟨⟨note, tail, hnote, hrest, htail⟩, hstop⟩ := ih h
    refine ⟨?_, hstop⟩
    have hskipped := htail.filler (.block hnote .nil)
    subst hrest
    rw [Gap.Passes]
    simpa only [List.cons_append, List.append_assoc, List.nil_append] using hskipped
  | case3 p c rest _ _ hblank ih =>
    obtain ⟨hpasses, hstop⟩ := ih h
    exact ⟨hpasses.filler (.blank hblank .nil), hstop⟩
  | case4 p c rest hline hblock hblank =>
    refine ⟨⟨[], rfl, .inl .nil⟩, ?_⟩
    rintro _ _ ⟨⟩
    refine ⟨Bool.eq_false_iff.2 hblank, fun hc d hd => ?_⟩
    cases rest with
    | nil => cases hd
    | cons e rest =>
      cases hd
      have hslash : d ≠ '/' := fun he => hline rest hc (by rw [he])
      have hstar : d ≠ '*' := fun he => hblock rest hc (by rw [he])
      simp [Symbol.joins, hslash, hstar]
  | case5 p c rest ih =>
    obtain ⟨hpasses, hstop⟩ := ih h
    refine ⟨?_, hstop⟩
    by_cases hc : c = '\n'
    · subst hc
      exact .inr ⟨[], rest, List.not_mem_nil, rfl, hpasses⟩
    · rw [if_neg hc] at hpasses ⊢
      rcases hpasses with ⟨hrest, hnil⟩ | ⟨note, tail, hnote, rfl, htail⟩
      · refine .inl ⟨?_, hnil⟩
        simp [hrest, Ne.symm hc]
      · refine .inr ⟨c :: note, tail, ?_, rfl, htail⟩
        simp [hnote, Ne.symm hc]
  | case6 opened p rest ih =>
    obtain ⟨hpasses, hstop⟩ := ih h
    exact ⟨⟨[], rest, by simp, rfl, hpasses⟩, hstop⟩
  | case7 opened p c rest hopen ih =>
    obtain ⟨⟨note, tail, hnote, rfl, htail⟩, hstop⟩ := ih h
    refine ⟨⟨c :: note, tail, fun hclosed => ?_, rfl, htail⟩, hstop⟩
    rcases List.infix_cons_iff.1 hclosed with hfirst | hlater
    · obtain ⟨more, hmore⟩ := hfirst
      obtain ⟨rfl, rfl⟩ := List.cons.inj hmore
      exact hopen _ rfl rfl
    · exact hnote hlater
  | case8 opened p => exact absurd h (ErrorList.Extends.refl _).ne_of_push
  | case9 g p hblock =>
    refine ⟨?_, fun _ _ hcons => by cases hcons⟩
    cases g with
    | blank => exact ⟨[], rfl, .inl .nil⟩
    | lineComment => exact .inl ⟨List.not_mem_nil, rfl⟩
    | blockComment opened => exact absurd rfl (hblock opened)

/-- The escapes that the reader knows. -/
lemma mem_escapes {e c : Char} (h : escape? e = some c) : (e, c) ∈ escapes := by
  unfold escape? at h
  split at h <;> cases h <;> decide

/-- Without a report, a text between quotes is read up to the quote that closes it. -/
lemma escaped_of_scanText (quote : Char) (opened : Position) (faults : ErrorList Fault)
    (read : List Char) (p : Position) (cs : List Char)
    (h : (scanText quote opened faults read p cs).faults = faults) :
    ∃ value ws, Escaped quote value ws ∧
      cs = ws ++ quote :: (scanText quote opened faults read p cs).after.rest ∧
      (scanText quote opened faults read p cs).kind? =
        some (.text (String.ofList (read.reverse ++ value))) := by
  fun_induction scanText quote opened faults read p cs with
  | case1 | case2 => exact absurd h (ErrorList.Extends.refl _).ne_of_push
  | case3 faults read p c rest q d hd ih =>
    obtain ⟨value, ws, hescaped, hrest, hkind⟩ := ih h
    refine ⟨d :: value, '\\' :: c :: ws, .escape (mem_escapes hd) hescaped, ?_, ?_⟩
    · simpa using hrest
    · simpa using hkind
  | case4 faults read p c rest q hnone ih =>
    exact absurd h (scanText_extends ..).ne_of_push
  | case5 faults read p rest _ _ => exact ⟨[], [], .nil, rfl, by simp⟩
  | case6 faults read p c rest hlone hpair hc ih =>
    obtain ⟨value, ws, hescaped, hrest, hkind⟩ := ih h
    have hbackslash : c ≠ '\\' := by
      intro hc
      cases rest with
      | nil => exact hlone hc rfl
      | cons d rest => exact hpair d rest hc rfl
    refine ⟨c :: value, c :: ws, .plain hbackslash hc hescaped, ?_, ?_⟩
    · simpa using hrest
    · simpa using hkind

/-- What follows the longest run of a class does not begin with a character of the class. -/
lemma head?_dropWhile_eq_false (p : Char → Bool) (cs : List Char) :
    ∀ c ∈ (cs.dropWhile p).head?, p c = false := by
  intro c hc
  rw [Option.mem_def] at hc
  simpa [hc] using List.head?_dropWhile_not p cs

/-- The characters of the longest run of a class are of the class. -/
lemma mem_takeWhile_of_class (p : Char → Bool) (cs : List Char) :
    ∀ c ∈ cs.takeWhile p, p c := fun _ hc => List.mem_takeWhile_imp hc

/-- The digits of a fraction, the point before them and what is left after them. -/
lemma fraction_spec (rest : List Char) :
    fraction rest = [] ∧ (∀ d, ['.', d] <+: rest → isDigit d = false) ∨
      ∃ d ds, fraction rest = d :: ds ∧ (∀ e ∈ d :: ds, isDigit e) ∧
        rest = '.' :: (d :: ds ++ rest.drop (ds.length + 2)) ∧
        ∀ e ∈ (rest.drop (ds.length + 2)).head?, isDigit e = false := by
  unfold fraction
  split
  · next more =>
    have hsplit := List.takeWhile_append_dropWhile (p := isDigit) (l := more)
    have hstop := head?_dropWhile_eq_false isDigit more
    have hdigits := mem_takeWhile_of_class isDigit more
    generalize more.takeWhile isDigit = ds at hsplit hdigits ⊢
    generalize more.dropWhile isDigit = left at hsplit hstop
    subst hsplit
    cases ds with
    | nil =>
      refine .inl ⟨rfl, ?_⟩
      rintro d ⟨tail, htail⟩
      obtain ⟨-, rfl⟩ := List.cons.inj htail
      exact hstop d rfl
    | cons d ds =>
      refine .inr ⟨d, ds, rfl, hdigits, ?_, ?_⟩
      · simp
      · simpa using hstop
  · next hpoint =>
    refine .inl ⟨rfl, ?_⟩
    rintro d ⟨tail, rfl⟩
    exact absurd rfl (hpoint (d :: tail))

/-- What is read as a number is one that ends where reading stopped. -/
lemma written_of_scanNumber {c : Char} (hc : isDigit c) (rest : List Char) :
    c :: rest = (scanNumber c rest).2.1 ++ (scanNumber c rest).2.2 ∧
      (scanNumber c rest).1.Written (scanNumber c rest).2.1 ∧
      (scanNumber c rest).1.EndsBefore (scanNumber c rest).2.1 (scanNumber c rest).2.2 := by
  have hsplit := List.takeWhile_append_dropWhile (p := isDigit) (l := rest)
  have hstop := head?_dropWhile_eq_false isDigit rest
  have hdigits := mem_takeWhile_of_class isDigit rest
  unfold scanNumber
  generalize rest.takeWhile isDigit = cs at hsplit hdigits ⊢
  generalize rest.dropWhile isDigit = left at hsplit hstop ⊢
  subst hsplit
  rcases fraction_spec left with ⟨hnone, hpoint⟩ | ⟨d, ds, hsome, hds, hleft, hends⟩
  · simp only [hnone]
    exact ⟨rfl, .whole hc hdigits, hstop, fun _ => hpoint⟩
  · simp only [hsome]
    rw [List.forall_mem_cons] at hds
    refine ⟨?_, .fraction hc hdigits hds.1 hds.2, hends, fun hpoint => ?_⟩
    · conv_lhs => rw [hleft]
      simp
    · simp at hpoint

/-- What is read as a sign is one that ends where reading stopped. -/
lemma written_of_symbol? {c : Char} {rest left : List Char} {s : Symbol}
    (h : symbol? c rest = some (s, left))
    (hslash : c = '/' → ∀ d ∈ rest.head?, Symbol.slash.joins d = false) :
    c :: rest = s.text.toList ++ left ∧ ∀ d ∈ left.head?, s.joins d = false := by
  unfold symbol? at h
  split at h <;> cases h
  -- a sign that could go on is followed by something else, or the longer one would be read
  case h_10 => exact ⟨rfl, hslash rfl⟩
  case h_12 hnext | h_13 hnext | h_14 hnext | h_15 hnext =>
    refine ⟨rfl, fun d hd => beq_eq_false_iff_ne.2 ?_⟩
    rintro rfl
    obtain ⟨tail, rfl⟩ := List.head?_eq_some_iff.1 hd
    exact hnext tail rfl
  all_goals exact ⟨rfl, fun _ _ => rfl⟩

/-- A word is read as the token that is written so. -/
lemma written_wordKind {c : Char} {cs : List Char} (hstart : isNameStart c)
    (hparts : ∀ d ∈ cs, isNamePart d) : (wordKind (c :: cs)).Written (c :: cs) := by
  by_cases hfree : ∀ k : Keyword, k.text.toList ≠ c :: cs
  · rw [wordKind_name hfree]
    exact .name hstart hparts hfree
  · obtain ⟨k, hk⟩ := not_forall_not.1 hfree
    rw [← hk, wordKind_keyword]
    exact .keyword k

/-- Words end before anything that is no part of a name. -/
lemma wordKind_endsBefore (w : List Char) {rest : List Char}
    (h : ∀ c ∈ rest.head?, isNamePart c = false) : (wordKind w).EndsBefore w rest := by
  unfold wordKind
  split <;> exact h

/-- Without a report, a token is read that ends where reading stopped. -/
lemma written_of_scanToken (faults : ErrorList Fault) (p : Position) (c : Char)
    (rest : List Char) (h : (scanToken faults p c rest).faults = faults)
    (hslash : c = '/' → ∀ d ∈ rest.head?, Symbol.slash.joins d = false) :
    ∃ k w, (scanToken faults p c rest).kind? = some k ∧ k.Written w ∧
      c :: rest = w ++ (scanToken faults p c rest).after.rest ∧
      k.EndsBefore w (scanToken faults p c rest).after.rest := by
  unfold scanToken at h ⊢
  split
  · next hquote =>
    rw [if_pos hquote] at h
    obtain ⟨value, ws, hescaped, hrest, hkind⟩ := escaped_of_scanText c p faults [] _ rest h
    refine ⟨_, _, hkind, .text hquote hescaped, ?_, trivial⟩
    simpa using hrest
  · split
    · next hdigit =>
      obtain ⟨hrest, hwritten, hends⟩ := written_of_scanNumber hdigit rest
      exact ⟨_, _, rfl, hwritten, hrest, hends⟩
    · split
      · next hstart =>
        have hwritten := written_wordKind hstart (mem_takeWhile_of_class isNamePart rest)
        refine ⟨_, _, rfl, hwritten, ?_, ?_⟩
        · rw [List.cons_append, List.takeWhile_append_dropWhile]
        · exact wordKind_endsBefore _ (head?_dropWhile_eq_false isNamePart rest)
      · next hquote hdigit hstart =>
        rw [if_neg hquote, if_neg hdigit, if_neg hstart] at h
        split
        · next s left hsymbol =>
          obtain ⟨hrest, hends⟩ := written_of_symbol? hsymbol hslash
          exact ⟨_, _, rfl, .symbol s, hrest, hends⟩
        · next hsymbol =>
          rw [hsymbol] at h
          exact absurd h (ErrorList.Extends.refl _).ne_of_push

/-- Without a report, one round of reading passes over filler and a token. -/
lemma written_of_skipGap {before faults : ErrorList Fault} {p q : Position} {cs rest : List Char}
    {c : Char} (hskip : skipGap before .blank p cs = (faults, ⟨q, c :: rest⟩))
    (h : (scanToken faults q c rest).faults = before) :
    ∃ gap k w, Filler gap ∧ k.Written w ∧ (scanToken faults q c rest).kind? = some k ∧
      cs = gap ++ (w ++ (scanToken faults q c rest).after.rest) ∧
      k.EndsBefore w (scanToken faults q c rest).after.rest := by
  have hextends := skipGap_extends before .blank p cs
  rw [hskip] at hextends
  have hfaults : faults = before := (scanToken_extends faults q c rest).eq_of_eq hextends h
  obtain ⟨hpasses, hstop⟩ := skipGap_passes before .blank p cs (by rw [hskip]; exact hfaults)
  rw [hskip] at hpasses hstop
  obtain ⟨gap, hcs, hgap⟩ := hpasses
  obtain ⟨k, w, hkind, hwritten, hsplit, hends⟩ :=
    written_of_scanToken faults q c rest (h.trans hfaults.symm) (hstop c rest rfl).2
  rcases hgap with hgap | ⟨hnil, -⟩
  · exact ⟨gap, k, w, hgap, hwritten, hkind, hcs.trans (congrArg (gap ++ ·) hsplit), hends⟩
  · cases hnil

/-- A text that is read without a fault is a layout of its tokens. -/
lemma laidOut_of_scanFrom (p : Position) (cs : List Char)
    (h : (scanFrom .empty p cs).2 = .empty) :
    ∃ ks, LaidOut ks cs ∧ (scanFrom .empty p cs).1.map (·.kind) = ks ++ [.endOfFile] := by
  generalize hbefore : ErrorList.empty = before at h ⊢
  fun_induction scanFrom before p cs with
  | case1 before p cs faults q hskip =>
    have hpasses := (skipGap_passes before .blank p cs (by rw [hskip]; exact h)).1
    rw [hskip] at hpasses
    obtain ⟨gap, rfl, hgap⟩ := hpasses
    refine ⟨[], .done ?_, rfl⟩
    rw [List.append_nil]
    rcases hgap with hgap | ⟨-, hgap⟩
    · exact .filler hgap
    · exact hgap
  | case2 before p cs faults q c rest hskip hfull =>
    have hfaults : faults = before := h
    rw [hfaults, ← hbefore] at hfull
    cases hfull
  | case3 before p cs faults q c rest hskip hfull hless s tokens after heq kind hkind ih =>
    have hextends := skipGap_extends before .blank p cs
    have hrest := scanFrom_extends s.faults s.after.here s.after.rest
    rw [hskip] at hextends
    rw [heq] at hrest ih
    have htoken : s.faults = before :=
      hrest.eq_of_eq ((scanToken_extends faults q c rest).trans hextends) h
    obtain ⟨gap, k, w, hgap, hwritten, hk, rfl, hends⟩ := written_of_skipGap hskip htoken
    obtain rfl : kind = k := Option.some.inj (hkind.symm.trans hk)
    obtain ⟨ks, hlaid, hkinds⟩ := ih (hbefore.trans htoken.symm) (h.trans htoken.symm)
    exact ⟨kind :: ks, .token hgap hwritten hends hlaid, congrArg (kind :: ·) hkinds⟩
  | case4 before p cs faults q c rest hskip hfull hless s tokens after heq hkind ih =>
    have hextends := skipGap_extends before .blank p cs
    have hrest := scanFrom_extends s.faults s.after.here s.after.rest
    rw [hskip] at hextends
    rw [heq] at hrest
    have htoken : s.faults = before :=
      hrest.eq_of_eq ((scanToken_extends faults q c rest).trans hextends) h
    obtain ⟨gap, k, w, -, -, hk, -, -⟩ := written_of_skipGap hskip htoken
    cases hkind.symm.trans hk

/-! ### Tokens with separators between them -/

/-- Filler that begins with a blank. -/
def Separator (gap : List Char) : Prop :=
  Filler gap ∧ ∃ b cs, isBlank b ∧ gap = b :: cs

/-- The texts that hold the given tokens in some written form each, with a separator after
each token.  After the last one it may be missing. -/
inductive Spaced : List TokenKind → List Char → Prop
  | nil : Spaced [] []
  | last {k : TokenKind} {w : List Char} (hw : k.Written w) : Spaced [k] w
  | cons {k : TokenKind} {ks : List TokenKind} {w gap rest : List Char} (hw : k.Written w)
      (hgap : Separator gap) (h : Spaced ks rest) : Spaced (k :: ks) (w ++ (gap ++ rest))

/-- Every token ends before the end of the text. -/
lemma TokenKind.endsBefore_nil (k : TokenKind) (w : List Char) : k.EndsBefore w [] := by
  cases k <;> simp [TokenKind.EndsBefore]

/-- Tokens with separators between them are a layout. -/
lemma Spaced.laidOut {ks : List TokenKind} {text : List Char} (h : Spaced ks text) :
    LaidOut ks text := by
  induction h with
  | nil => exact .done (.filler .nil)
  | last hw =>
    have hlaid := LaidOut.token .nil hw (TokenKind.endsBefore_nil ..) (.done (.filler .nil))
    rwa [List.nil_append, List.append_nil] at hlaid
  | @cons k ks w gap rest hw hgap _ ih =>
    obtain ⟨hfiller, b, cs, hb, rfl⟩ := hgap
    have hends := (TokenKind.endsBefore_nil k w).blank hb (cs ++ rest)
    have hlaid := LaidOut.token .nil hw hends (hfiller.laidOut ih)
    rwa [List.nil_append] at hlaid

/-- However tokens are written and whatever separates them, the same tokens are read. -/
theorem scan_spaced {ks : List TokenKind} {lead text : List Char} (hlead : Filler lead)
    (h : Spaced ks text) :
    (scan (String.ofList (lead ++ text))).1.map (·.kind) = ks ++ [.endOfFile] ∧
      (scan (String.ofList (lead ++ text))).2 = .empty := by
  have hlaid := hlead.laidOut h.laidOut
  rw [scan, String.toList_ofList]
  exact hlaid.scanFrom .origin

/-- Signs that share their beginning, a name that begins like a reserved word, comments that
look closed and a text that holds its own quote, a backslash and a comment. -/
theorem scan_spaced_mixed :
    let lead := "\n/* = **/ ".toList
    let text := "kamata\t// ; \n = ==\r/ 12.50 /*/ 7 */ '\\'\\\\\n//'".toList
    let ks : List TokenKind := [.name "kamata", .symbol .assign, .symbol .equal, .symbol .slash,
      .number (decimalValue ['1', '2'] ['5', '0']), .text "'\\\n//"]
    Filler lead ∧ Spaced ks text ∧
      (scan (String.ofList (lead ++ text))).1.map (·.kind) = ks ++ [.endOfFile] := by
  intro lead text ks
  have hlead : Filler lead := by
    have hnote : ¬ ['*', '/'] <:+: [' ', '=', ' ', '*'] := by decide
    exact .blank rfl (.block hnote (.blank rfl .nil))
  have htext : Spaced ks text := by
    have hspace : Separator [' '] := ⟨.blank rfl .nil, _, _, rfl, rfl⟩
    have hreturn : Separator ['\r'] := ⟨.blank rfl .nil, _, _, rfl, rfl⟩
    have hline : Separator ['\t', '/', '/', ' ', ';', ' ', '\n', ' '] := by
      have hnote : '\n' ∉ [' ', ';', ' '] := by decide
      exact ⟨.blank rfl (.line hnote (.blank rfl .nil)), _, _, rfl, rfl⟩
    have hblock : Separator [' ', '/', '*', '/', ' ', '7', ' ', '*', '/', ' '] := by
      have hnote : ¬ ['*', '/'] <:+: ['/', ' ', '7', ' '] := by decide
      exact ⟨.blank rfl (.block hnote (.blank rfl .nil)), _, _, rfl, rfl⟩
    have hname : (TokenKind.name "kamata").Written ['k', 'a', 'm', 'a', 't', 'a'] := by
      refine .name (by decide) (List.all_eq_true.1 (by decide)) fun k => ?_
      cases k <;> decide
    have hnumber : (TokenKind.number (decimalValue ['1', '2'] ['5', '0'])).Written
        ['1', '2', '.', '5', '0'] :=
      .fraction (by decide) (List.all_eq_true.1 (by decide)) (by decide)
        (List.all_eq_true.1 (by decide))
    have hcomment : Escaped '\'' ['\n', '/', '/'] ['\n', '/', '/'] :=
      .plain (by decide) (by decide) (.plain (by decide) (by decide)
        (.plain (by decide) (by decide) .nil))
    have hescaped : Escaped '\'' ['\'', '\\', '\n', '/', '/']
        ['\\', '\'', '\\', '\\', '\n', '/', '/'] :=
      .escape (by decide) (.escape (by decide) hcomment)
    exact .cons hname hline (.cons (.symbol .assign) hspace (.cons (.symbol .equal) hreturn
      (.cons (.symbol .slash) hspace (.cons hnumber hblock (.last (.text (.inr rfl) hescaped))))))
  exact ⟨hlead, htext, (scan_spaced hlead htext).1⟩

end Lugha
