import Lugha.Proofs.ByteLexer
import Lugha.Proofs.Lexemes

/-!
# Reading bytes is reading characters

The reader of bytes and the reader of characters find the same tokens at the same places, and note
the same faults in the same words.

A character is written with a single byte below 128, or with a first byte from 192 on and others
that continue it.  So the bytes by which tokens, comments and quotations are told apart are never
part of another character.  Where the reader of bytes stands inside a character, it stands in a
comment, between quotes or in a character that begins no token, and there it goes on to the next
character without counting.  In particular a buffer that was gathered between quotes holds whole
characters at the end, also after a backslash that took the first byte of a character alone.
-/

namespace Lugha.Bytes

/-! ### The bytes of a character -/

/-- The UTF-8 form of characters. -/
def encode (cs : List Char) : List UInt8 := cs.flatMap String.utf8EncodeChar

/-- The bytes of a text are those of its characters. -/
lemma bytes_eq_encode (s : String) : Text.bytes s = encode s.toList := by
  rw [encode, ← Text.bytes_ofList, String.ofList_toList]

/-- How a character is written: with a single byte, or with a first byte and others that continue
it. -/
inductive Encoded (c : Char) : List UInt8 → Prop
  | single (hc : c.toNat < 0x80) : Encoded c [c.toUInt8]
  | wide {b : UInt8} {bs : List UInt8} (hc : 0x80 ≤ c.toNat) (hb : 0xC0 ≤ b.toNat)
      (hlead : b.toNat = leadByte c) (hbs : ∀ x ∈ bs, isContinuation x = true) :
      Encoded c (b :: bs)

/-- A byte from 128 up to 191 continues a character, and no other. -/
lemma isContinuation_iff (b : UInt8) :
    isContinuation b = true ↔ 0x80 ≤ b.toNat ∧ b.toNat < 0xC0 := by
  have hall : ∀ n : Fin 256, isContinuation (.ofNat n) = true ↔ 0x80 ≤ n.val ∧ n.val < 0xC0 := by
    decide +kernel
  have hb := hall ⟨b.toNat, b.toNat_lt⟩
  rwa [UInt8.ofNat_toNat] at hb

/-- The digits of a character after its first byte continue it. -/
lemma isContinuation_of_mem_continuation {k n : Nat} :
    ∀ x ∈ continuation k n, isContinuation x = true := by
  induction k with
  | zero => exact List.forall_mem_nil _
  | succ k ih =>
    refine List.forall_mem_cons.2 ⟨?_, ih⟩
    rw [isContinuation_iff, UInt8.toNat_ofNat']
    omega

/-- How every character is written. -/
lemma encoded (c : Char) : Encoded c (String.utf8EncodeChar c) := by
  obtain ⟨k, mark, hfirst, hencode⟩ := utf8EncodeChar_eq c
  have hbyte : (UInt8.ofNat (c.val.toNat / 64 ^ k + mark)).toNat = c.val.toNat / 64 ^ k + mark :=
    UInt8.toNat_ofNat_of_lt' hfirst.lt
  have hwide (hc : 0x80 ≤ c.toNat) (hlarge : 0xC0 ≤ c.val.toNat / 64 ^ k + mark)
      (hlead : c.val.toNat / 64 ^ k + mark = leadByte c) :
      Encoded c (String.utf8EncodeChar c) := by
    rw [hencode]
    exact .wide hc (hbyte.symm ▸ hlarge) (hbyte.trans hlead) isContinuation_of_mem_continuation
  have hval : c.toNat = c.val.toNat := rfl
  cases hfirst with
  | one h =>
    rw [hencode, pow_zero, Nat.div_one, Nat.add_zero]
    exact .single h
  | two h h' => exact hwide h (by omega) (by simp only [leadByte]; split_ifs <;> omega)
  | three h h' => exact hwide (by omega) (by omega) (by simp only [leadByte]; split_ifs <;> omega)
  | four h h' => exact hwide (by omega) (by omega) (by simp only [leadByte]; split_ifs <;> omega)

/-- Nothing is written with no bytes. -/
@[simp] lemma encode_nil : encode [] = [] := rfl

/-- The bytes of a character and those of what follows. -/
lemma encode_cons (c : Char) (cs : List Char) :
    encode (c :: cs) = String.utf8EncodeChar c ++ encode cs := List.flatMap_cons

/-- The bytes of two texts. -/
lemma encode_append (cs ds : List Char) : encode (cs ++ ds) = encode cs ++ encode ds :=
  List.flatMap_append

/-- A character below 128 is written with one byte. -/
lemma utf8EncodeChar_single {c : Char} (h : c.toNat < 0x80) :
    String.utf8EncodeChar c = [c.toUInt8] := by
  generalize hbytes : String.utf8EncodeChar c = bytes
  cases hbytes ▸ encoded c with
  | single => rfl
  | wide hc => omega

/-- A character below 128 is one byte before those of what follows. -/
lemma encode_single {c : Char} (h : c.toNat < 0x80) (cs : List Char) :
    encode (c :: cs) = c.toUInt8 :: encode cs := by
  rw [encode_cons, utf8EncodeChar_single h, List.singleton_append]

/-- A byte as a character has the number of the byte. -/
lemma toNat_ofUInt8 (b : UInt8) : (Char.ofUInt8 b).toNat = b.toNat := UInt8.toNat_toUInt32 b

/-- A character below 128 as a byte has the number of the character. -/
lemma toNat_toUInt8 {c : Char} (h : c.toNat < 0x80) : c.toUInt8.toNat = c.toNat := by
  have hmod : c.toUInt8.toNat = c.toNat % 2 ^ 8 := UInt32.toNat_toUInt8 _
  omega

/-- A byte below 128 is the character with its number. -/
lemma ofUInt8_toUInt8 {c : Char} (h : c.toNat < 0x80) : Char.ofUInt8 c.toUInt8 = c :=
  Char.toNat_inj.1 ((toNat_ofUInt8 _).trans (toNat_toUInt8 h))

/-- Characters below 128 are told apart by their bytes. -/
lemma toUInt8_eq_iff {c : Char} (hc : c.toNat < 0x80) (d : Char) (hd : d.toNat < 0x80) :
    c.toUInt8 = d.toUInt8 ↔ c = d := by
  refine ⟨fun h => ?_, congrArg _⟩
  rw [← ofUInt8_toUInt8 hc, h, ofUInt8_toUInt8 hd]

/-- The first byte of a character of several bytes is no single byte. -/
lemma ne_of_wide {b d : UInt8} (hb : 0xC0 ≤ b.toNat) (hd : d.toNat < 0x80) : b ≠ d := by
  rintro rfl
  omega

/-- A byte that continues a character is no single byte. -/
lemma ne_of_continuation {b d : UInt8} (hb : isContinuation b = true) (hd : d.toNat < 0x80) :
    b ≠ d := by
  rintro rfl
  have hrange := (isContinuation_iff b).1 hb
  omega

/-- The first byte of a character does not continue one. -/
lemma not_isContinuation_of_wide {b : UInt8} (hb : 0xC0 ≤ b.toNat) : isContinuation b = false := by
  refine Bool.eq_false_iff.2 fun h => ?_
  have hrange := (isContinuation_iff b).1 h
  omega

/-- Text does not begin with a byte that continues a character. -/
lemma not_isContinuation_head (cs : List Char) :
    ∀ b ∈ (encode cs).head?, isContinuation b = false := by
  intro b hb
  cases cs with
  | nil => cases hb
  | cons c cs =>
    rw [encode_cons] at hb
    generalize hbytes : String.utf8EncodeChar c = bytes at hb
    cases hbytes ▸ encoded c with
    | single hc =>
      obtain rfl := Option.some.inj hb
      refine Bool.eq_false_iff.2 fun h => ?_
      have hrange := (isContinuation_iff _).1 h
      rw [toNat_toUInt8 hc] at hrange
      omega
    | wide _ hwide =>
      obtain rfl := Option.some.inj hb
      exact not_isContinuation_of_wide hwide

/-- Text that begins with a single byte begins with the character of that byte. -/
lemma eq_cons_of_encode {cs : List Char} {b : UInt8} {bs : List UInt8} (h : encode cs = b :: bs)
    (hb : b.toNat < 0x80) : ∃ ds, cs = Char.ofUInt8 b :: ds ∧ bs = encode ds := by
  cases cs with
  | nil => cases h
  | cons c cs =>
    rw [encode_cons] at h
    generalize hbytes : String.utf8EncodeChar c = bytes at h
    cases hbytes ▸ encoded c with
    | single hc =>
      obtain ⟨rfl, rfl⟩ := List.cons.inj h
      exact ⟨cs, by rw [ofUInt8_toUInt8 hc], rfl⟩
    | wide _ hwide =>
      obtain ⟨rfl, -⟩ := List.cons.inj h
      omega

/-! ### Classes of single bytes -/

/-- A class of characters below 128. -/
def IsSingle (p : Char → Bool) : Prop := ∀ c, p c = true → c.toNat < 0x80

/-- No character of several bytes is in the class. -/
lemma IsSingle.eq_false {p : Char → Bool} (hp : IsSingle p) {c : Char} (hc : 0x80 ≤ c.toNat) :
    p c = false := by
  refine Bool.eq_false_iff.2 fun h => ?_
  have hlt := hp c h
  omega

/-- No first byte of a character of several bytes is in the class. -/
lemma IsSingle.eq_false_of_wide {p : Char → Bool} (hp : IsSingle p) {b : UInt8}
    (hb : 0xC0 ≤ b.toNat) : p (Char.ofUInt8 b) = false :=
  hp.eq_false (by rw [toNat_ofUInt8]; omega)

/-- Blanks are single bytes. -/
lemma isSingle_isBlank : IsSingle isBlank := by
  intro c hc
  simp only [isBlank, Bool.or_eq_true, beq_iff_eq] at hc
  rcases hc with ((rfl | rfl) | rfl) | rfl <;> decide

/-- Digits are single bytes. -/
lemma isSingle_isDigit : IsSingle isDigit := by
  intro c hc
  simp only [isDigit, Bool.and_eq_true, decide_eq_true_eq] at hc
  have hle : c.toNat ≤ '9'.toNat := hc.2
  exact Nat.lt_of_le_of_lt hle (by decide)

/-- What begins a name is a single byte. -/
lemma isSingle_isNameStart : IsSingle isNameStart := by
  intro c hc
  simp only [isNameStart, Bool.or_eq_true, Bool.and_eq_true, decide_eq_true_eq, beq_iff_eq] at hc
  rcases hc with (⟨-, hle⟩ | ⟨-, hle⟩) | rfl
  · have hle : c.toNat ≤ 'z'.toNat := hle
    exact Nat.lt_of_le_of_lt hle (by decide)
  · have hle : c.toNat ≤ 'Z'.toNat := hle
    exact Nat.lt_of_le_of_lt hle (by decide)
  · decide

/-- What continues a name is a single byte. -/
lemma isSingle_isNamePart : IsSingle isNamePart := by
  intro c hc
  rcases Bool.or_eq_true_iff.1 hc with h | h
  · exact isSingle_isNameStart c h
  · exact isSingle_isDigit c h

/-! ### Places -/

/-- Bytes that continue a character are passed over without counting. -/
lemma past_continuation {bs : List UInt8} (h : ∀ b ∈ bs, isContinuation b = true) (p : Position) :
    past p bs = p := by
  induction bs with
  | nil => rfl
  | cons b bs ih =>
    obtain ⟨hb, hbs⟩ := List.forall_mem_cons.1 h
    have hstep : step p b = p := by
      rw [step, if_neg (ne_of_continuation hb (by decide)), if_pos hb]
    rw [past, List.foldl_cons, hstep]
    exact ih hbs

/-- A single byte is counted as its character is. -/
lemma step_single {c : Char} (hc : c.toNat < 0x80) (p : Position) :
    step p c.toUInt8 = p.step c := by
  have hnewline : c.toUInt8 = 0x0A ↔ c = '\n' := toUInt8_eq_iff hc '\n' (by decide)
  have hnot : isContinuation c.toUInt8 = false := by
    refine Bool.eq_false_iff.2 fun h => ?_
    have hrange := (isContinuation_iff _).1 h
    rw [toNat_toUInt8 hc] at hrange
    omega
  rw [step, Position.step, hnot]
  simp [hnewline]

/-- The first byte of a character of several bytes is counted as the character is. -/
lemma step_wide {c : Char} {b : UInt8} (hc : 0x80 ≤ c.toNat) (hb : 0xC0 ≤ b.toNat)
    (p : Position) : step p b = p.step c := by
  have hnewline : c ≠ '\n' := by
    rintro rfl
    exact absurd hc (by decide)
  rw [step, if_neg (ne_of_wide hb (by decide)), not_isContinuation_of_wide hb, Position.step,
    if_neg hnewline]
  rfl

/-- The first byte of a character is counted as the character is, and the others continue it. -/
lemma exists_firstByte (c : Char) :
    ∃ b bs, String.utf8EncodeChar c = b :: bs ∧ b.toNat = leadByte c ∧
      (∀ p, step p b = p.step c) ∧ ∀ x ∈ bs, isContinuation x = true := by
  generalize hbytes : String.utf8EncodeChar c = bytes
  cases hbytes ▸ encoded c with
  | single hc =>
    refine ⟨_, _, rfl, ?_, step_single hc, List.forall_mem_nil _⟩
    rw [toNat_toUInt8 hc, leadByte]
    exact (if_pos hc).symm
  | wide hc hb hlead hbs => exact ⟨_, _, rfl, hlead, step_wide hc hb, hbs⟩

/-- The bytes of a text are counted as its characters are. -/
lemma past_encode (p : Position) (cs : List Char) : past p (encode cs) = p.past cs := by
  induction cs generalizing p with
  | nil => rfl
  | cons c cs ih =>
    obtain ⟨b, bs, hbytes, -, hstep, hbs⟩ := exists_firstByte c
    have hrest := past_continuation hbs (step p b)
    rw [past] at hrest
    rw [encode_cons, hbytes, past, List.foldl_append, List.foldl_cons, hrest, hstep,
      Position.past_cons, ← ih, past]

/-! ### Blanks and comments -/

/-- Wording errors does not change whether there are too many. -/
lemma isFull_map {ε δ : Type} (f : ε → δ) (es : ErrorList ε) : (es.map f).isFull = es.isFull := rfl

/-- A place in a text as one in its bytes. -/
def Reader.ofText (r : Lugha.Reader) : Reader := ⟨r.here, encode r.rest⟩

/-- In a line comment, bytes that continue a character are skipped. -/
lemma skipGap_line_continuation (notices : ErrorList Notice) {bs : List UInt8}
    (h : ∀ b ∈ bs, isContinuation b = true) (p : Position) (rest : List UInt8) :
    skipGap notices .lineComment p (bs ++ rest) = skipGap notices .lineComment p rest := by
  induction bs with
  | nil => rfl
  | cons b bs ih =>
    obtain ⟨hb, hbs⟩ := List.forall_mem_cons.1 h
    have hstep : step p b = p := past_continuation (List.forall_mem_singleton.2 hb) p
    rw [List.cons_append, skipGap_lineComment, if_neg (ne_of_continuation hb (by decide)), hstep,
      ih hbs]

/-- In a block comment, bytes that continue a character are skipped. -/
lemma skipGap_block_continuation (notices : ErrorList Notice) {bs : List UInt8}
    (h : ∀ b ∈ bs, isContinuation b = true) (opened p : Position) (rest : List UInt8) :
    skipGap notices (.blockComment opened) p (bs ++ rest) =
      skipGap notices (.blockComment opened) p rest := by
  induction bs with
  | nil => rfl
  | cons b bs ih =>
    obtain ⟨hb, hbs⟩ := List.forall_mem_cons.1 h
    have hstep : step p b = p := past_continuation (List.forall_mem_singleton.2 hb) p
    rw [List.cons_append, skipGap, hstep, ih hbs]
    intro more hstar
    exact absurd hstar (ne_of_continuation hb (by decide))

/-- A character of a line comment is skipped with all its bytes. -/
lemma skipGap_line_char (notices : ErrorList Notice) (c : Char) (p : Position) (rest : List UInt8) :
    skipGap notices .lineComment p (String.utf8EncodeChar c ++ rest) =
      skipGap notices (if c = '\n' then .blank else .lineComment) (p.step c) rest := by
  generalize hbytes : String.utf8EncodeChar c = bytes
  cases hbytes ▸ encoded c with
  | single hc =>
    have hnewline : c.toUInt8 = 0x0A ↔ c = '\n' := toUInt8_eq_iff hc '\n' (by decide)
    rw [List.singleton_append, skipGap_lineComment, step_single hc]
    simp [hnewline]
  | wide hc hb _ hbs =>
    have hnewline : c ≠ '\n' := by
      rintro rfl
      exact absurd hc (by decide)
    rw [List.cons_append, skipGap_lineComment, if_neg (ne_of_wide hb (by decide)),
      step_wide hc hb, skipGap_line_continuation notices hbs, if_neg hnewline]

/-- A character of a block comment that does not close it is skipped with all its bytes. -/
lemma skipGap_block_char (notices : ErrorList Notice) {c : Char} {cs : List Char}
    (h : c = '*' → ∀ ds, cs ≠ '/' :: ds) (opened p : Position) :
    skipGap notices (.blockComment opened) p (encode (c :: cs)) =
      skipGap notices (.blockComment opened) (p.step c) (encode cs) := by
  rw [encode_cons]
  generalize hbytes : String.utf8EncodeChar c = bytes
  cases hbytes ▸ encoded c with
  | single hc =>
    rw [List.singleton_append, skipGap, step_single hc]
    intro more hstar hslash
    obtain ⟨ds, hds, -⟩ := eq_cons_of_encode hslash (by decide)
    exact h ((toUInt8_eq_iff hc '*' (by decide)).1 hstar) ds hds
  | wide hc hb _ hbs =>
    rw [List.cons_append, skipGap, step_wide hc hb, skipGap_block_continuation notices hbs]
    intro more hstar
    exact absurd hstar (ne_of_wide hb (by decide))

/-- A character that begins no gap ends it. -/
lemma skipGap_stop_char (notices : ErrorList Notice) {c : Char} {cs : List Char}
    (hblank : isBlank c = false) (hcomment : c = '/' → ∀ d ds, cs = d :: ds → d ≠ '/' ∧ d ≠ '*')
    (p : Position) :
    skipGap notices .blank p (encode (c :: cs)) = (notices, ⟨p, encode (c :: cs)⟩) := by
  rw [encode_cons]
  generalize hbytes : String.utf8EncodeChar c = bytes
  cases hbytes ▸ encoded c with
  | single hc =>
    rw [List.singleton_append, skipGap, ofUInt8_toUInt8 hc, hblank]
    · rfl
    all_goals
      intro more hslash hnext
      obtain ⟨ds, hds, -⟩ := eq_cons_of_encode hnext (by decide)
      have hd := hcomment ((toUInt8_eq_iff hc '/' (by decide)).1 hslash) _ ds hds
    · exact hd.1 rfl
    · exact hd.2 rfl
  | @wide b bs hc hb _ hbs =>
    rw [List.cons_append, skipGap, isSingle_isBlank.eq_false_of_wide hb]
    · rfl
    all_goals
      intro more hslash
      exact absurd hslash (ne_of_wide hb (by decide))

/-- Gaps are skipped in bytes as they are in characters. -/
lemma skipGap_encode (faults : ErrorList Fault) (g : Gap) (p : Position) (cs : List Char) :
    skipGap (faults.map Fault.notice) g p (encode cs) =
      ((Lugha.skipGap faults g p cs).1.map Fault.notice,
        .ofText (Lugha.skipGap faults g p cs).2) := by
  fun_induction Lugha.skipGap faults g p cs with
  | case1 p rest ih => rw [← ih]; rfl
  | case2 p rest ih => rw [← ih]; rfl
  | case3 p c rest hline hblock hblank ih =>
    have hc := isSingle_isBlank c hblank
    rw [encode_single hc, skipGap, ofUInt8_toUInt8 hc, if_pos hblank, step_single hc, ih]
    all_goals
      intro more hslash
      rw [(toUInt8_eq_iff hc '/' (by decide)).1 hslash] at hblank
      cases hblank
  | case4 p c rest hline hblock hblank =>
    refine skipGap_stop_char _ (Bool.eq_false_iff.2 hblank) ?_ p
    rintro rfl d ds rfl
    exact ⟨fun hd => hline ds rfl (hd ▸ rfl), fun hd => hblock ds rfl (hd ▸ rfl)⟩
  | case5 p c rest ih => rw [encode_cons, skipGap_line_char, ih]
  | case6 opened p rest ih => rw [← ih]; rfl
  | case7 opened p c rest hclose ih =>
    rw [skipGap_block_char, ih]
    rintro rfl ds rfl
    exact hclose ds rfl rfl
  | case8 opened p =>
    rw [ErrorList.map_push]
    rfl
  | case9 g p hnot =>
    cases g with
    | blank | lineComment => rfl
    | blockComment opened => exact absurd rfl (hnot opened)

/-! ### Texts between quotes -/

/-- The letters of escapes and what they stand for are single bytes. -/
lemma escape?_isSingle {c d : Char} (h : Lugha.escape? c = some d) :
    c.toNat < 0x80 ∧ d.toNat < 0x80 := by
  have hall : ∀ x ∈ escapes, x.1.toNat < 0x80 ∧ x.2.toNat < 0x80 := by
    decide
  exact hall (c, d) (mem_escapes h)

/-- A single byte is an escape as its character is. -/
lemma escape?_single {c : Char} (hc : c.toNat < 0x80) :
    escape? c.toUInt8 = (Lugha.escape? c).map Char.toUInt8 := by
  have hall : ∀ n : Fin 128,
      escape? (Char.ofNat n).toUInt8 = (Lugha.escape? (Char.ofNat n)).map Char.toUInt8 := by
    decide +kernel
  have h := hall ⟨c.toNat, hc⟩
  rwa [Char.ofNat_toNat] at h

/-- The first byte of a character of several bytes is no escape. -/
lemma escape?_wide {b : UInt8} (hb : 0xC0 ≤ b.toNat) : escape? b = none := by
  unfold escape?
  split <;> first | rfl | exact absurd hb (by decide)

/-- The buffer of a text that was read, whose last character comes first. -/
def gather (read : List Char) : List UInt8 := (encode read.reverse).reverse

/-- The bytes of one more character. -/
lemma gather_cons (c : Char) (read : List Char) :
    gather (c :: read) = (String.utf8EncodeChar c).reverse ++ gather read := by
  rw [gather, List.reverse_cons, encode_append, List.reverse_append, gather, encode_cons,
    encode_nil, List.append_nil]

/-- One more character that is a single byte. -/
lemma gather_single {c : Char} (hc : c.toNat < 0x80) (read : List Char) :
    gather (c :: read) = c.toUInt8 :: gather read := by
  rw [gather_cons, utf8EncodeChar_single hc]
  rfl

section Texts

variable {quote : UInt8} {opened : Position} {notices : ErrorList Notice}

/-- Between quotes, a byte that is no quote and no backslash is gathered. -/
lemma scanText_byte {b : UInt8} (hb : b ≠ quote) (hbackslash : b ≠ 0x5C) (gathered : List UInt8)
    (p : Position) (rest : List UInt8) :
    scanText quote opened notices gathered p (b :: rest) =
      scanText quote opened notices (b :: gathered) (step p b) rest := by
  conv_lhs => rw [scanText.eq_def]
  dsimp only
  rw [if_neg hb, if_neg hbackslash]

/-- Between quotes, bytes that continue a character are gathered without counting. -/
lemma scanText_continuation (hquote : quote.toNat < 0x80) {bs : List UInt8}
    (h : ∀ b ∈ bs, isContinuation b = true) (gathered : List UInt8) (p : Position)
    (rest : List UInt8) :
    scanText quote opened notices gathered p (bs ++ rest) =
      scanText quote opened notices (bs.reverse ++ gathered) p rest := by
  induction bs generalizing gathered with
  | nil => rfl
  | cons b bs ih =>
    obtain ⟨hb, hbs⟩ := List.forall_mem_cons.1 h
    have hstep : step p b = p := past_continuation (List.forall_mem_singleton.2 hb) p
    rw [List.cons_append, scanText_byte (ne_of_continuation hb hquote)
      (ne_of_continuation hb (by decide)), hstep, ih hbs]
    simp

/-- Between quotes, a character that is no quote and no backslash is gathered. -/
lemma scanText_char (hquote : quote.toNat < 0x80) {c : Char} (hc : c ≠ .ofUInt8 quote)
    (hbackslash : c ≠ '\\') (read : List Char) (p : Position) (rest : List UInt8) :
    scanText quote opened notices (gather read) p (String.utf8EncodeChar c ++ rest) =
      scanText quote opened notices (gather (c :: read)) (p.step c) rest := by
  rw [gather_cons]
  generalize hbytes : String.utf8EncodeChar c = bytes
  cases hbytes ▸ encoded c with
  | single hsmall =>
    have hne : c.toUInt8 ≠ quote := fun h => hc (by rw [← h, ofUInt8_toUInt8 hsmall])
    have hne' : c.toUInt8 ≠ 0x5C :=
      fun h => hbackslash ((toUInt8_eq_iff hsmall '\\' (by decide)).1 h)
    rw [List.singleton_append, scanText_byte hne hne', step_single hsmall]
    rfl
  | wide hlarge hb _ hbs =>
    rw [List.cons_append, scanText_byte (ne_of_wide hb hquote) (ne_of_wide hb (by decide)),
      step_wide hlarge hb, scanText_continuation hquote hbs]
    simp

/-- A backslash and a character with which it is no escape: the character is gathered, and its first
byte is quoted. -/
lemma scanText_invalid (hquote : quote.toNat < 0x80) (hbackslash : quote ≠ 0x5C) {c : Char}
    (hc : Lugha.escape? c = none) (read : List Char) (p : Position) (rest : List UInt8) :
    scanText quote opened notices (gather read) p (0x5C :: (String.utf8EncodeChar c ++ rest)) =
      scanText quote opened
        (notices.push (Fault.notice ⟨.invalidEscape c, .upTo p (p.past ['\\', c])⟩))
        (gather (c :: read)) (p.past ['\\', c]) rest := by
  obtain ⟨b, bs, hbytes, hlead, hstep, hbs⟩ := exists_firstByte c
  have hnone : escape? b = none := by
    cases hbytes ▸ encoded c with
    | single hsmall => rw [escape?_single hsmall, hc, Option.map_none]
    | wide _ hb => exact escape?_wide hb
  have hquoted : Char.ofUInt8 b = Char.ofNat (leadByte c) := by
    rw [← hlead, ← toNat_ofUInt8, Char.ofNat_toNat]
  have hpast : past p [0x5C, b] = p.past ['\\', c] := by
    have hfirst : step p 0x5C = p.step '\\' := step_single (c := '\\') (by decide) p
    rw [past, List.foldl_cons, List.foldl_cons, List.foldl_nil, hfirst, hstep]
    rfl
  rw [hbytes, List.cons_append, scanText, if_neg hbackslash.symm, if_pos rfl, hnone, hpast]
  dsimp only
  rw [scanText_continuation hquote hbs, gather_cons, hbytes, hquoted, List.reverse_cons,
    List.append_assoc, List.singleton_append]
  rfl

/-- A backslash and a letter: the character that they stand for is gathered. -/
lemma scanText_escape (hbackslash : quote ≠ 0x5C) {c d : Char} (hc : Lugha.escape? c = some d)
    (read : List Char) (p : Position) (rest : List UInt8) :
    scanText quote opened notices (gather read) p (0x5C :: c.toUInt8 :: rest) =
      scanText quote opened notices (gather (d :: read)) (p.past ['\\', c]) rest := by
  obtain ⟨hsmall, hsmall'⟩ := escape?_isSingle hc
  have hsome : escape? c.toUInt8 = some d.toUInt8 := by rw [escape?_single hsmall, hc]; rfl
  have hpast : past p [0x5C, c.toUInt8] = p.past ['\\', c] := by
    rw [← past_encode, encode_single (by decide), encode_single hsmall]
    rfl
  rw [scanText, if_neg hbackslash.symm, if_pos rfl, hsome, hpast, gather_single hsmall']

end Texts

/-- What stands between quotes is read in bytes as it is in characters, and what was gathered are
the bytes of the text. -/
lemma scanText_encode {quote : Char} (hquote : quote.toNat < 0x80) (hbackslash : quote ≠ '\\')
    (opened : Position) (faults : ErrorList Fault) (read : List Char) (p : Position)
    (cs : List Char) :
    ∃ value, (Lugha.scanText quote opened faults read p cs).kind? =
        some (.text (String.ofList value)) ∧
      scanText quote.toUInt8 opened (faults.map Fault.notice) (gather read) p (encode cs) =
        ⟨encode value, (Lugha.scanText quote opened faults read p cs).faults.map Fault.notice,
          .ofText (Lugha.scanText quote opened faults read p cs).after⟩ := by
  have hbyte : quote.toUInt8.toNat < 0x80 := by rwa [toNat_toUInt8 hquote]
  have hne : quote.toUInt8 ≠ 0x5C := fun h =>
    hbackslash ((toUInt8_eq_iff hquote '\\' (by decide)).1 h)
  have hunclosed (q : Position) : unclosedText quote.toUInt8 opened q =
      Fault.notice ⟨.unclosedText quote, .upTo opened q⟩ := by
    rw [unclosedText, ofUInt8_toUInt8 hquote]
    rfl
  fun_induction Lugha.scanText quote opened faults read p cs with
  | case1 faults read p =>
    refine ⟨read.reverse, rfl, ?_⟩
    rw [encode_nil, scanText_nil, hunclosed, ErrorList.map_push, gather, List.reverse_reverse]
    rfl
  | case2 faults read p =>
    refine ⟨read.reverse, rfl, ?_⟩
    have hstep : step p 0x5C = p.step '\\' := step_single (c := '\\') (by decide) p
    rw [encode_single (by decide), encode_nil]
    change scanText _ _ _ _ _ [0x5C] = _
    rw [scanText, if_neg hne.symm, if_pos rfl, hstep, hunclosed, ErrorList.map_push, gather,
      List.reverse_reverse]
    rfl
  | case3 faults read p c rest q d hd ih =>
    obtain ⟨value, hkind, hscan⟩ := ih
    refine ⟨value, hkind, ?_⟩
    rw [encode_single (by decide), encode_single (escape?_isSingle hd).1,
      ← hscan]
    exact scanText_escape hne hd read p _
  | case4 faults read p c rest q hnone ih =>
    obtain ⟨value, hkind, hscan⟩ := ih
    refine ⟨value, hkind, ?_⟩
    rw [encode_single (by decide), encode_cons, ← hscan, ErrorList.map_push]
    exact scanText_invalid hbyte hne hnone read p _
  | case5 faults read p rest hlone hpair =>
    refine ⟨read.reverse, rfl, ?_⟩
    rw [encode_single hquote, scanText.eq_def]
    dsimp only
    rw [if_pos rfl, step_single hquote, gather, List.reverse_reverse]
    rfl
  | case6 faults read p c rest hlone hpair hc ih =>
    obtain ⟨value, hkind, hscan⟩ := ih
    refine ⟨value, hkind, ?_⟩
    rw [encode_cons, ← hscan]
    refine scanText_char hbyte ?_ ?_ read p _
    · rwa [ofUInt8_toUInt8 hquote]
    · intro heq
      cases rest with
      | nil => exact hlone heq rfl
      | cons d rest => exact hpair d rest heq rfl

/-! ### Valid bytes -/

/-- The bytes of a text are turned into that text: nothing is replaced. -/
lemma lossy_encode (cs : List Char) : lossy (encode cs) = cs := by
  induction cs with
  | nil => rw [encode_nil, lossy, if_pos rfl]
  | cons c cs ih =>
    have hne : String.utf8EncodeChar c ++ encode cs ≠ [] :=
      List.append_ne_nil_of_left_ne_nil String.utf8EncodeChar_ne_nil _
    have hdecode :
        (String.utf8EncodeChar c ++ encode cs).toByteArray.utf8DecodeChar? 0 = some c := by
      rw [List.toByteArray_append]
      exact ByteArray.utf8DecodeChar?_utf8EncodeChar_append
    have hdrop : (String.utf8EncodeChar c ++ encode cs).drop c.utf8Size = encode cs :=
      List.drop_left' (String.length_utf8EncodeChar c)
    rw [encode_cons, lossy, if_neg hne, hdecode]
    dsimp only
    rw [hdrop, ih]

/-! ### Words, numbers and signs -/

/-- A single byte as a character, and what follows. -/
lemma latin_single {c : Char} (hc : c.toNat < 0x80) (cs : List Char) :
    latin (encode (c :: cs)) = c :: latin (encode cs) := by
  rw [encode_single hc, latin, List.map_cons, ofUInt8_toUInt8 hc]
  rfl

/-- The first byte of a character of several bytes as a character. -/
lemma latin_wide {c : Char} (hc : 0x80 ≤ c.toNat) (cs : List Char) :
    ∃ b bs, 0xC0 ≤ b.toNat ∧ latin (encode (c :: cs)) = Char.ofUInt8 b :: bs := by
  rw [encode_cons]
  generalize hbytes : String.utf8EncodeChar c = bytes
  cases hbytes ▸ encoded c with
  | single hsmall => omega
  | wide _ hb => exact ⟨_, _, hb, rfl⟩

section Classes

variable {p : Char → Bool} (hp : IsSingle p)

include hp

/-- The longest run of a class of single bytes is found in the bytes as in the text. -/
lemma takeWhile_latin (cs : List Char) : (latin (encode cs)).takeWhile p = cs.takeWhile p := by
  induction cs with
  | nil => rfl
  | cons c cs ih =>
    by_cases hc : c.toNat < 0x80
    · rw [latin_single hc, List.takeWhile_cons, List.takeWhile_cons, ih]
    · obtain ⟨b, bs, hb, hbytes⟩ := latin_wide (Nat.le_of_not_lt hc) cs
      rw [hbytes, List.takeWhile_cons, hp.eq_false_of_wide hb, List.takeWhile_cons,
        hp.eq_false (Nat.le_of_not_lt hc)]
      rfl

/-- What follows the longest run of a class of single bytes is left in both. -/
lemma dropWhile_latin (cs : List Char) :
    (latin (encode cs)).dropWhile p = latin (encode (cs.dropWhile p)) := by
  induction cs with
  | nil => rfl
  | cons c cs ih =>
    by_cases hc : c.toNat < 0x80
    · rw [latin_single hc, List.dropWhile_cons, List.dropWhile_cons, ih]
      split
      · rfl
      · rw [latin_single hc]
    · obtain ⟨b, bs, hb, hbytes⟩ := latin_wide (Nat.le_of_not_lt hc) cs
      rw [hbytes, List.dropWhile_cons, hp.eq_false_of_wide hb, List.dropWhile_cons,
        hp.eq_false (Nat.le_of_not_lt hc)]
      exact hbytes.symm

end Classes

/-- The digits after a point are the same. -/
lemma fraction_latin (cs : List Char) : fraction (latin (encode cs)) = fraction cs := by
  have hother {c : Char} (hc : c ≠ '.') (cs : List Char) : fraction (c :: cs) = [] := by
    unfold fraction
    split
    · next heq => exact absurd (List.cons.inj heq).1 hc
    · rfl
  cases cs with
  | nil => rfl
  | cons c cs =>
    by_cases hc : c.toNat < 0x80
    · rw [latin_single hc]
      by_cases hpoint : c = '.'
      · subst hpoint
        exact takeWhile_latin isSingle_isDigit cs
      · rw [hother hpoint, hother hpoint]
    · obtain ⟨b, bs, hb, hbytes⟩ := latin_wide (Nat.le_of_not_lt hc) cs
      have hpoint : c ≠ '.' := by
        rintro rfl
        exact hc (by decide)
      have hpoint' : Char.ofUInt8 b ≠ '.' := by
        intro h
        have hnumber := congrArg Char.toNat h
        rw [toNat_ofUInt8] at hnumber
        rw [hnumber] at hb
        exact absurd hb (by decide)
      rw [hbytes, hother hpoint, hother hpoint']

/-- A number is read from bytes as from characters. -/
lemma scanNumber_latin (c : Char) (cs : List Char) :
    (scanNumber c (latin (encode cs))).1 = (scanNumber c cs).1 ∧
      (scanNumber c (latin (encode cs))).2.1 = (scanNumber c cs).2.1 := by
  simp only [scanNumber, takeWhile_latin isSingle_isDigit, dropWhile_latin isSingle_isDigit,
    fraction_latin]
  cases fraction (cs.dropWhile isDigit) <;> exact ⟨rfl, rfl⟩

/-- The sign that begins with a character, where another one may follow. -/
def sign? (c : Char) (follows : Option Char) : Option Symbol :=
  match c with
  | '=' => some (if follows = some '=' then .equal else .assign)
  | '!' => some (if follows = some '=' then .notEqual else .bang)
  | '<' => some (if follows = some '=' then .lessEqual else .less)
  | '>' => some (if follows = some '=' then .greaterEqual else .greater)
  | '&' => if follows = some '&' then some .both else none
  | '|' => if follows = some '|' then some .either else none
  | _ => (symbol? c []).map Prod.fst

/-- Which sign is read is told by two characters. -/
lemma symbol?_map_fst (c : Char) (cs : List Char) :
    (symbol? c cs).map Prod.fst = sign? c cs.head? := by
  cases cs with
  | nil =>
    unfold sign?
    split <;> rfl
  | cons d ds =>
    unfold sign?
    split
    case h_1 | h_2 | h_3 | h_4 =>
      by_cases hd : d = '='
      · subst hd
        rfl
      · simp [symbol?, hd]
    case h_5 =>
      by_cases hd : d = '&'
      · subst hd
        rfl
      · simp [symbol?, hd]
    case h_6 =>
      by_cases hd : d = '|'
      · subst hd
        rfl
      · simp [symbol?, hd]
    case h_7 h1 h2 h3 h4 h5 h6 =>
      unfold symbol?
      split <;> simp_all

/-- A character of several bytes makes no sign longer. -/
lemma sign?_large (c : Char) {d : Char} (hd : 0x80 ≤ d.toNat) :
    sign? c (some d) = sign? c none := by
  have hne (x : Char) (hx : x.toNat < 0x80) : some d ≠ some x := by
    rintro ⟨⟩
    omega
  unfold sign?
  split <;> simp [hne '=' (by decide), hne '&' (by decide), hne '|' (by decide)]

/-- A sign is read from bytes as from characters. -/
lemma symbol?_latin (c : Char) (cs : List Char) :
    (symbol? c (latin (encode cs))).map Prod.fst = (symbol? c cs).map Prod.fst := by
  rw [symbol?_map_fst, symbol?_map_fst]
  cases cs with
  | nil => rfl
  | cons d ds =>
    by_cases hd : d.toNat < 0x80
    · rw [latin_single hd]
      rfl
    · obtain ⟨b, bs, hb, hbytes⟩ := latin_wide (Nat.le_of_not_lt hd) ds
      have hlarge : 0x80 ≤ (Char.ofUInt8 b).toNat := by
        rw [toNat_ofUInt8]
        omega
      rw [hbytes, List.head?_cons, List.head?_cons, sign?_large c hlarge,
        sign?_large c (Nat.le_of_not_lt hd)]

/-- A token that is no text is made of single bytes. -/
lemma isSingle_of_written {k : TokenKind} {w : List Char} (h : k.Written w)
    (htext : ∀ s, k ≠ .text s) : ∀ c ∈ w, c.toNat < 0x80 := by
  cases h with
  | name hstart hparts _ =>
    exact List.forall_mem_cons.2 ⟨isSingle_isNameStart _ hstart,
      fun d hd => isSingle_isNamePart d (hparts d hd)⟩
  | keyword k =>
    obtain ⟨c, cs, hk, hstart, hparts⟩ := k.text_spec
    rw [hk]
    exact List.forall_mem_cons.2 ⟨isSingle_isNameStart _ hstart,
      fun d hd => isSingle_isNamePart d (hparts d hd)⟩
  | symbol s =>
    have hall : s.text.toList.all (fun c => c.toNat < 0x80) = true := by cases s <;> decide
    exact fun c hc => of_decide_eq_true (List.all_eq_true.1 hall c hc)
  | whole hc hcs =>
    exact List.forall_mem_cons.2 ⟨isSingle_isDigit _ hc, fun d hd => isSingle_isDigit d (hcs d hd)⟩
  | fraction hc hcs hd hds =>
    refine List.forall_mem_cons.2 ⟨isSingle_isDigit _ hc, List.forall_mem_append.2
      ⟨fun e he => isSingle_isDigit e (hcs e he), List.forall_mem_cons.2 ⟨by decide,
        List.forall_mem_cons.2 ⟨isSingle_isDigit _ hd, fun e he => isSingle_isDigit e (hds e he)⟩⟩⟩⟩
  | text _ _ => exact absurd rfl (htext _)

/-- Single characters have as many bytes. -/
lemma length_encode {cs : List Char} (h : ∀ c ∈ cs, c.toNat < 0x80) :
    (encode cs).length = cs.length := by
  induction cs with
  | nil => rfl
  | cons c cs ih =>
    obtain ⟨hc, hcs⟩ := List.forall_mem_cons.1 h
    rw [encode_single hc, List.length_cons, ih hcs, List.length_cons]

/-- A token of single bytes is passed over as its characters are. -/
lemma pass_encode (faults : ErrorList Fault) (p : Position) {c : Char} {cs ws left : List Char}
    {k : TokenKind} (hw : k.Written (c :: ws)) (htext : ∀ s, k ≠ .text s) (hcs : cs = ws ++ left) :
    pass (faults.map Fault.notice) p c.toUInt8 (encode cs) k ws.length =
      ⟨some k, faults.map Fault.notice, .ofText ⟨p.past (c :: ws), left⟩⟩ := by
  obtain ⟨hc, hws⟩ := List.forall_mem_cons.1 (isSingle_of_written hw htext)
  have hlength := length_encode hws
  rw [pass, hcs, encode_append, List.take_left' hlength, List.drop_left' hlength,
    ← encode_single hc, past_encode]
  rfl

/-! ### Tokens -/

/-- What was read of a text, as it is read of its bytes. -/
def Scanned.ofText (s : Lugha.Scanned) : Scanned :=
  ⟨s.kind?, s.faults.map Fault.notice, .ofText s.after⟩

/-- A quotation is read from bytes as from characters. -/
lemma scanToken_quote (faults : ErrorList Fault) (p : Position) {c : Char}
    (hquote : c = '"' ∨ c = '\'') (cs : List Char) :
    scanToken (faults.map Fault.notice) p c.toUInt8 (encode cs) =
      .ofText (Lugha.scanToken faults p c cs) := by
  have hc : c.toNat < 0x80 := by
    rcases hquote with rfl | rfl <;> decide
  have hbackslash : c ≠ '\\' := by
    rcases hquote with rfl | rfl <;> decide
  have hbyte : c.toUInt8 = 0x22 ∨ c.toUInt8 = 0x27 :=
    hquote.imp (toUInt8_eq_iff hc '"' (by decide)).2 (toUInt8_eq_iff hc '\'' (by decide)).2
  obtain ⟨value, hkind, hscan⟩ := scanText_encode hc hbackslash p faults [] (p.step c) cs
  rw [scanToken, if_pos hbyte, Lugha.scanToken, if_pos hquote, step_single hc]
  change (let g := scanText c.toUInt8 p (faults.map Fault.notice) (gather []) (p.step c) (encode cs)
    (⟨some (.text (String.ofList (lossy g.buffer))), g.notices, g.after⟩ : Scanned)) = _
  rw [hscan, Scanned.ofText, hkind]
  dsimp only
  rw [lossy_encode]

/-- What is read as a sign begins with it. -/
lemma eq_append_of_symbol? {c : Char} {rest left : List Char} {s : Symbol}
    (h : symbol? c rest = some (s, left)) : c :: rest = s.text.toList ++ left := by
  unfold symbol? at h
  split at h <;> cases h <;> rfl

/-- The bytes that continue a character are told from those of the text after it. -/
lemma takeWhile_continuation {bs : List UInt8} (h : ∀ b ∈ bs, isContinuation b = true)
    (cs : List Char) :
    (bs ++ encode cs).takeWhile isContinuation = bs ∧
      (bs ++ encode cs).dropWhile isContinuation = encode cs := by
  have hhead := not_isContinuation_head cs
  rw [List.takeWhile_append_of_pos h, List.dropWhile_append_of_pos h]
  generalize encode cs = rest at hhead
  cases rest with
  | nil => simp
  | cons b rest => simp [hhead b rfl]

/-- A character that begins no token is noted and passed over with all its bytes. -/
lemma reject_encode (faults : ErrorList Fault) (p : Position) {c : Char} {b : UInt8}
    {bs : List UInt8} (hbytes : String.utf8EncodeChar c = b :: bs)
    (hbs : ∀ x ∈ bs, isContinuation x = true) (cs : List Char) :
    reject (faults.map Fault.notice) p b (bs ++ encode cs) =
      .ofText ⟨none, faults.push ⟨strayCharacter c, .upTo p (p.step c)⟩, ⟨p.step c, cs⟩⟩ := by
  have hchar : b :: bs = encode [c] := by rw [encode_cons, encode_nil, List.append_nil, hbytes]
  rw [reject, Scanned.ofText, ErrorList.map_push, strayCharacter]
  by_cases h : c = '&' ∨ c = '|'
  · have hc : c.toNat < 0x80 := by
      rcases h with rfl | rfl <;> decide
    rw [encode_single hc] at hchar
    obtain ⟨rfl, rfl⟩ := List.cons.inj hchar
    have hhalf : c.toUInt8 = 0x26 ∨ c.toUInt8 = 0x7C :=
      h.imp (toUInt8_eq_iff hc '&' (by decide)).2 (toUInt8_eq_iff hc '|' (by decide)).2
    rw [if_pos hhalf, if_pos h, step_single hc, ofUInt8_toUInt8 hc]
    rfl
  · have hhalf : ¬ (b = 0x26 ∨ b = 0x7C) := by
      rintro (rfl | rfl)
      · obtain ⟨ds, hds, -⟩ := eq_cons_of_encode hchar.symm (by decide)
        exact h (.inl (List.cons.inj hds).1)
      · obtain ⟨ds, hds, -⟩ := eq_cons_of_encode hchar.symm (by decide)
        exact h (.inr (List.cons.inj hds).1)
    obtain ⟨htake, hdrop⟩ := takeWhile_continuation hbs cs
    rw [if_neg hhalf, if_neg h, htake, hdrop, hchar]
    dsimp only
    rw [lossy_encode, past_encode]
    rfl

/-- A sign begins with a single byte. -/
lemma symbol?_large {c : Char} (hc : 0x80 ≤ c.toNat) (rest : List Char) :
    symbol? c rest = none := by
  refine Option.eq_none_iff_forall_ne_some.2 fun ⟨s, left⟩ hfound => ?_
  have hwritten := TokenKind.Written.symbol s
  have hcs := eq_append_of_symbol? hfound
  obtain ⟨d, ws, htext, -⟩ := hwritten.head_not_isWhite
  rw [htext] at hwritten hcs
  obtain ⟨rfl, -⟩ := List.cons.inj hcs
  have hsmall := isSingle_of_written hwritten (fun t => by rintro ⟨⟩) c List.mem_cons_self
  omega

/-- A token that begins with a single byte is read from bytes as from characters. -/
lemma scanToken_single (faults : ErrorList Fault) (p : Position) {c : Char} (hc : c.toNat < 0x80)
    (cs : List Char) :
    scanToken (faults.map Fault.notice) p c.toUInt8 (encode cs) =
      .ofText (Lugha.scanToken faults p c cs) := by
  by_cases hquote : c = '"' ∨ c = '\''
  · exact scanToken_quote faults p hquote cs
  have hbyte : ¬ (c.toUInt8 = 0x22 ∨ c.toUInt8 = 0x27) := fun h => hquote
    (h.imp (toUInt8_eq_iff hc '"' (by decide)).1 (toUInt8_eq_iff hc '\'' (by decide)).1)
  rw [scanToken, if_neg hbyte, Lugha.scanToken, if_neg hquote, ofUInt8_toUInt8 hc]
  dsimp only
  by_cases hdigit : isDigit c = true
  · obtain ⟨hkind, hword⟩ := scanNumber_latin c cs
    obtain ⟨hcs, hwritten, -⟩ := written_of_scanNumber hdigit cs
    rw [if_pos hdigit, if_pos hdigit, hkind, hword]
    generalize hn : scanNumber c cs = n at hcs hwritten
    obtain ⟨kind, word, left⟩ := n
    obtain ⟨d, ws, rfl, -⟩ := hwritten.head_not_isWhite
    obtain ⟨rfl, hws⟩ := List.cons.inj hcs
    refine pass_encode faults p hwritten ?_ hws
    exact fun s => by
      have hne := scanNumber_ne_text c cs s
      rwa [hn] at hne
  rw [if_neg hdigit, if_neg hdigit]
  by_cases hstart : isNameStart c = true
  · rw [if_pos hstart, if_pos hstart, takeWhile_latin isSingle_isNamePart]
    exact pass_encode faults p (written_wordKind hstart (mem_takeWhile_of_class isNamePart cs))
      (wordKind_ne_text _) (List.takeWhile_append_dropWhile).symm
  rw [if_neg hstart, if_neg hstart]
  have hlatin := symbol?_latin c cs
  cases hsymbol : symbol? c cs with
  | some found =>
    obtain ⟨s, left⟩ := found
    rw [hsymbol] at hlatin
    obtain ⟨⟨s', left'⟩, hfound, rfl⟩ := Option.map_eq_some_iff.1 hlatin
    have hwritten := TokenKind.Written.symbol s'
    have hcs := eq_append_of_symbol? hsymbol
    rw [hfound]
    dsimp only
    rw [← String.length_toList]
    obtain ⟨d, ws, htext, -⟩ := hwritten.head_not_isWhite
    rw [htext] at hwritten hcs ⊢
    obtain ⟨rfl, hws⟩ := List.cons.inj hcs
    exact pass_encode faults p hwritten (fun t => by rintro ⟨⟩) hws
  | none =>
    rw [hsymbol] at hlatin
    rw [Option.map_eq_none_iff.1 hlatin]
    exact reject_encode faults p (utf8EncodeChar_single hc) (List.forall_mem_nil _) cs

/-- A character of several bytes begins no token, in bytes and in characters. -/
lemma scanToken_wide (faults : ErrorList Fault) (p : Position) {c : Char} (hc : 0x80 ≤ c.toNat)
    {b : UInt8} {bs : List UInt8} (hbytes : String.utf8EncodeChar c = b :: bs)
    (hb : 0xC0 ≤ b.toNat) (hbs : ∀ x ∈ bs, isContinuation x = true) (cs : List Char) :
    scanToken (faults.map Fault.notice) p b (bs ++ encode cs) =
      .ofText (Lugha.scanToken faults p c cs) := by
  have hne (d : Char) (hd : d.toNat < 0x80) : c ≠ d := by
    rintro rfl
    omega
  have hlarge : 0x80 ≤ (Char.ofUInt8 b).toNat := by
    rw [toNat_ofUInt8]
    omega
  have hquote : ¬ (c = '"' ∨ c = '\'') := fun h =>
    h.elim (hne '"' (by decide)) (hne '\'' (by decide))
  have hquote' : ¬ (b = 0x22 ∨ b = 0x27) := fun h =>
    h.elim (ne_of_wide hb (by decide)) (ne_of_wide hb (by decide))
  rw [scanToken, if_neg hquote', isSingle_isDigit.eq_false hlarge,
    isSingle_isNameStart.eq_false hlarge, symbol?_large hlarge, Lugha.scanToken, if_neg hquote,
    isSingle_isDigit.eq_false hc, isSingle_isNameStart.eq_false hc, symbol?_large hc]
  exact reject_encode faults p hbytes hbs cs

/-- Tokens are read from bytes as from characters. -/
lemma scanToken_encode (faults : ErrorList Fault) (p : Position) (c : Char) (cs : List Char) :
    ∃ b bs, encode (c :: cs) = b :: bs ∧
      scanToken (faults.map Fault.notice) p b bs = .ofText (Lugha.scanToken faults p c cs) := by
  rw [encode_cons]
  generalize hbytes : String.utf8EncodeChar c = bytes
  cases hbytes ▸ encoded c with
  | single hc => exact ⟨_, _, rfl, scanToken_single faults p hc cs⟩
  | wide hc hb _ hbs => exact ⟨_, _, rfl, scanToken_wide faults p hc hbytes hb hbs cs⟩

/-! ### Whole texts -/

/-- The tokens of bytes are those of the text, as long as there are rounds. -/
lemma scanFrom_encode {rounds : Nat} (before : ErrorList Fault) (p : Position) {cs : List Char}
    (h : cs.length < rounds) :
    scanFrom rounds (before.map Fault.notice) p (encode cs) =
      ((Lugha.scanFrom before p cs).1, (Lugha.scanFrom before p cs).2.map Fault.notice) := by
  induction rounds generalizing before p cs with
  | zero => cases h
  | succ rounds ih =>
    have hlength := skipGap_length_le before .blank p cs
    rw [scanFrom, skipGap_encode]
    rcases hskip : Lugha.skipGap before .blank p cs with ⟨faults, q, _ | ⟨c, rest⟩⟩
    · rw [scanFrom_of_end hskip]
      rfl
    · rw [hskip, List.length_cons] at hlength
      obtain ⟨b, bs, hbytes, hscan⟩ := scanToken_encode faults q c rest
      rw [Reader.ofText, hbytes]
      dsimp only
      rw [isFull_map, hscan]
      by_cases hfull : faults.isFull = true
      · rw [if_pos hfull, scanFrom_of_full hskip hfull]
      · have hrest := scanToken_length_le faults q c rest
        generalize hword : Lugha.scanToken faults q c rest = s at hrest
        obtain ⟨kind?, after, q', rest'⟩ := s
        have hshorter : rest'.length < rounds := by
          dsimp only at hrest
          omega
        have hnext := ih after q' hshorter
        rw [if_neg hfull, scanFrom_of_word hskip (Bool.eq_false_iff.2 hfull) hword, Scanned.ofText,
          Reader.ofText]
        dsimp only
        rw [hnext]
        cases kind? <;> rfl

/-- A text has no more characters than bytes. -/
lemma length_le_encode (cs : List Char) : cs.length ≤ (encode cs).length := by
  induction cs with
  | nil => exact Nat.le_refl _
  | cons c cs ih =>
    have hsize := c.utf8Size_pos
    rw [encode_cons, List.length_append, String.length_utf8EncodeChar, List.length_cons]
    omega

/-- The tokens of a text are read from its bytes, and the same faults are noted. -/
lemma scan_bytes (text : String) :
    scan (Text.bytes text) = ((Lugha.scan text).1, (Lugha.scan text).2.map Fault.notice) := by
  rw [scan, bytes_eq_encode]
  exact scanFrom_encode .empty .origin (Nat.lt_succ_of_le (length_le_encode text.toList))

end Lugha.Bytes
