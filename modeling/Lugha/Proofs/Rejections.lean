import Lugha.Proofs.Lexemes

/-!
# Characters that are named in errors

Two errors of the reader quote a character of the text: the one for a character that begins no
token, and the one for a backslash that is no escape.  The errors of either kind are found one for
one, and in their order, in the lexemes of the text.

A character that begins no token is quoted as it stands.  After a backslash only the first byte of a
character is quoted, as if it were a character.  That is the character itself if it has one byte
only, and by accident also for `Ã`, whose first byte is its own number.
-/

namespace Lugha

/-- The character of a lexeme that begins no token, with the text before it. -/
def Lexeme.stray? (before : List Char) (x : Lexeme) : Option (List Char × Char) :=
  match x.word with
  | .stray c => some (before ++ x.gap, c)
  | _ => none

/-- The character after a backslash with which it is no escape, with the text before both. -/
def TextUnit.invalid? (before : List Char) (u : TextUnit) : Option (List Char × Char) :=
  match u with
  | .invalid c => some (before, c)
  | _ => none

/-- The characters of a lexeme that stand after a backslash and are no escapes. -/
def Lexeme.invalids (before : List Char) (x : Lexeme) : List (List Char × Char) :=
  match x.word with
  | .quoted q =>
    (placed TextUnit.text (before ++ x.gap ++ [q.quote]) q.units).filterMap
      fun y => y.2.invalid? y.1
  | _ => []

namespace Dissection

variable {before cs : List Char} {reported : Nat}

/-- The characters of a text that begin no token, each with the text before it. -/
def strays (d : Dissection before reported cs) : List (List Char × Char) :=
  (placed Lexeme.text before d.lexemes).filterMap fun y => y.2.stray? y.1

/-- The characters of a text that stand after a backslash and are no escapes, each with the text
before the backslash. -/
def invalids (d : Dissection before reported cs) : List (List Char × Char) :=
  (placed Lexeme.text before d.lexemes).flatMap fun y => y.2.invalids y.1

/-- A character that begins no token stands in the text at its place. -/
lemma exists_rest_of_mem_strays (d : Dissection before reported cs) {b : List Char} {c : Char}
    (h : (b, c) ∈ d.strays) :
    ∃ rest, before ++ cs = b ++ c :: rest ∧ (Word.stray c).Proper rest := by
  obtain ⟨⟨b', gap, w⟩, hplaced, hstray⟩ := List.mem_filterMap.1 h
  obtain ⟨rest, htext, hw⟩ := d.exists_rest hplaced
  cases w with
  | stray c' =>
    obtain ⟨rfl, rfl⟩ := Prod.mk.inj (Option.some.inj hstray)
    exact ⟨rest, htext, hw⟩
  | plain | quoted => cases hstray

/-- A character that is no escape stands in the text after a backslash. -/
lemma exists_rest_of_mem_invalids (d : Dissection before reported cs) {b : List Char} {c : Char}
    (h : (b, c) ∈ d.invalids) :
    ∃ rest, before ++ cs = b ++ '\\' :: c :: rest ∧ escape? c = none := by
  obtain ⟨⟨b', gap, w⟩, hplaced, hinvalid⟩ := List.mem_flatMap.1 h
  obtain ⟨rest, htext, hw⟩ := d.exists_rest hplaced
  cases w with
  | plain | stray => cases hinvalid
  | quoted q =>
    obtain ⟨⟨b'', u⟩, hunit, hu⟩ := List.mem_filterMap.1 hinvalid
    obtain ⟨us, vs, hunits, rfl⟩ := eq_append_of_mem_placed hunit
    have hproper : u.Proper q.quote := hw.units u (by rw [hunits]; simp)
    cases u with
    | plain | escape => cases hu
    | invalid c' =>
      obtain ⟨rfl, rfl⟩ := Prod.mk.inj (Option.some.inj hu)
      refine ⟨vs.flatMap TextUnit.text ++ (q.ending.text q.quote ++ rest), ?_, ?_⟩
      · rw [htext, Word.text, Quotation.word, Quotation.body, hunits]
        simp [TextUnit.text]
      · exact Option.eq_none_iff_forall_ne_some.2 fun e he => hproper e (mem_escapes he)

end Dissection

/-! ### Faults of a kind -/

/-- The faults of units are those of invalid escapes. -/
lemma Quotation.unitFaults_eq (before : List Char) (units : List TextUnit) :
    unitFaults before units =
      ((placed TextUnit.text before units).filterMap fun y => y.2.invalid? y.1).map
        fun y => ⟨.invalidEscape y.2, .over y.1 ['\\', y.2]⟩ := by
  rw [unitFaults, List.map_filterMap]
  induction units generalizing before with
  | nil => rfl
  | cons u units ih =>
    rw [placed, List.flatMap_cons, ih, List.filterMap_cons]
    cases u <;> rfl

/-- The faults of the last gap have a code of their own. -/
lemma LastGap.code_eq {before last rest : List Char} {left : List Fault}
    (h : LastGap before last rest left) : ∀ f ∈ left, f.error.code = 101 := by
  cases h with
  | stop | close => exact List.forall_mem_nil _
  | openComment => exact List.forall_mem_singleton.2 rfl

/-- The faults of the last gap have a code of their own. -/
lemma Cut.code_eq {before last rest : List Char} {left : List Fault} {xs : List Lexeme}
    (h : Cut last rest left before xs) : ∀ f ∈ left, f.error.code = 101 := by
  induction h with
  | done h => exact h.code_eq
  | lexeme _ _ _ ih => exact ih

section Codes

/-- The errors of a code among faults. -/
def Fault.withCode (n : Nat) (fs : List Fault) : List Fault := fs.filter fun f => f.error.code == n

/-- The errors of a code among faults one after the other. -/
lemma Fault.withCode_append (n : Nat) (fs gs : List Fault) :
    withCode n (fs ++ gs) = withCode n fs ++ withCode n gs := List.filter_append ..

/-- Faults that all have another code. -/
lemma Fault.withCode_eq_nil {n m : Nat} {fs : List Fault} (h : ∀ f ∈ fs, f.error.code = m)
    (hne : m ≠ n) : withCode n fs = [] :=
  List.filter_eq_nil_iff.2 fun f hf => by rw [h f hf, beq_iff_eq]; exact hne

/-- The faults at the end of a quotation have a code of their own. -/
lemma Quotation.code_endFaults (before : List Char) (x : Quotation) :
    ∀ f ∈ x.endFaults before, f.error.code = 102 := by
  unfold endFaults
  split
  · exact List.forall_mem_nil _
  · exact List.forall_mem_singleton.2 rfl

/-- The faults of units have a code of their own. -/
lemma Quotation.code_unitFaults (before : List Char) (units : List TextUnit) :
    ∀ f ∈ unitFaults before units, f.error.code = 104 := by
  rw [unitFaults_eq]
  intro f hf
  obtain ⟨y, -, rfl⟩ := List.mem_map.1 hf
  rfl

/-- A character that begins no token has an error with a code of its own. -/
lemma strayCharacter_code (c : Char) : (strayCharacter c).code = 103 := by
  unfold strayCharacter
  split <;> rfl

/-- A character that begins no token has one error. -/
lemma Lexeme.withCode_stray (before : List Char) (x : Lexeme) :
    Fault.withCode 103 (x.faults before) =
      (x.stray? before).toList.map fun y => ⟨strayCharacter y.2, .over y.1 [y.2]⟩ := by
  rcases x with ⟨gap, w⟩
  cases w with
  | plain => rfl
  | quoted q =>
    change Fault.withCode 103 (q.faults (before ++ gap)) = _
    rw [Quotation.faults, Fault.withCode_append,
      Fault.withCode_eq_nil (Quotation.code_unitFaults _ _) (by decide),
      Fault.withCode_eq_nil (Quotation.code_endFaults _ _) (by decide)]
    rfl
  | stray c =>
    simp [Lexeme.faults, Word.faults, Fault.withCode, stray?, strayCharacter_code]

/-- A character after a backslash with which it is no escape has one error. -/
lemma Lexeme.withCode_invalid (before : List Char) (x : Lexeme) :
    Fault.withCode 104 (x.faults before) =
      (x.invalids before).map fun y => ⟨.invalidEscape y.2, .over y.1 ['\\', y.2]⟩ := by
  rcases x with ⟨gap, w⟩
  cases w with
  | plain => rfl
  | quoted q =>
    have hall : Fault.withCode 104 (Quotation.unitFaults (before ++ gap ++ [q.quote]) q.units) =
        Quotation.unitFaults (before ++ gap ++ [q.quote]) q.units :=
      List.filter_eq_self.2 fun f hf => by rw [Quotation.code_unitFaults _ _ f hf]; rfl
    change Fault.withCode 104 (q.faults (before ++ gap)) = _
    rw [Quotation.faults, Fault.withCode_append, hall,
      Fault.withCode_eq_nil (Quotation.code_endFaults _ _) (by decide), List.append_nil,
      Quotation.unitFaults_eq]
    rfl
  | stray c =>
    simp [Lexeme.faults, Word.faults, Fault.withCode, invalids, strayCharacter_code]

variable {before cs : List Char} {reported : Nat}

/-- The errors of a code in a text are those in its lexemes. -/
lemma Dissection.withCode_faults (d : Dissection before reported cs) {n : Nat} (hn : 101 ≠ n) :
    Fault.withCode n d.faults = (placed Lexeme.text before d.lexemes).flatMap
      fun y => Fault.withCode n (y.2.faults y.1) := by
  rw [faults, Fault.withCode_append, Fault.withCode_eq_nil d.cut.code_eq hn, List.append_nil,
    Lexeme.allFaults, Fault.withCode, List.filter_flatMap]
  rfl

/-- There is one error for each character that begins no token. -/
lemma Dissection.withCode_strays (d : Dissection before reported cs) :
    Fault.withCode 103 d.faults =
      d.strays.map fun y => ⟨strayCharacter y.2, .over y.1 [y.2]⟩ := by
  rw [d.withCode_faults (by decide), strays, List.filterMap_eq_flatMap_toList, List.map_flatMap]
  simp only [Lexeme.withCode_stray]

/-- There is one error for each invalid escape. -/
lemma Dissection.withCode_invalids (d : Dissection before reported cs) :
    Fault.withCode 104 d.faults =
      d.invalids.map fun y => ⟨.invalidEscape y.2, .over y.1 ['\\', y.2]⟩ := by
  rw [d.withCode_faults (by decide), invalids, List.map_flatMap]
  simp only [Lexeme.withCode_invalid]

end Codes

/-! ### What errors quote -/

/-- A character that begins no token is quoted as it stands. -/
lemma strayCharacter_message (c : Char) :
    (strayCharacter c).message = "unexpected character '" ++ String.singleton c ++ "'" := by
  unfold strayCharacter
  split <;> rfl

/-- The first byte of a character is its number if it has one byte, and for one character more. -/
lemma leadByte_eq_iff (c : Char) : leadByte c = c.toNat ↔ c.toNat < 0x80 ∨ c = 'Ã' := by
  have hc : c = 'Ã' ↔ c.toNat = 0xC3 := ⟨fun h => by rw [h]; rfl, fun h => Char.toNat_inj.1 h⟩
  rw [hc]
  simp only [leadByte]
  split_ifs <;> omega

/-- The first byte of a character as a character is the character itself if it has its number. -/
lemma ofNat_leadByte_eq_iff (c : Char) :
    Char.ofNat (leadByte c) = c ↔ c.toNat < 0x80 ∨ c = 'Ã' := by
  rw [← leadByte_eq_iff]
  constructor
  · intro h
    have hvalid : (leadByte c).isValidChar := by
      have hmax : c.toNat < 0x110000 := by
        rcases c.valid with h | h <;> (change c.val.toNat < _; omega)
      refine .inl ?_
      simp only [leadByte]
      split_ifs <;> omega
    have hnumber := congrArg Char.toNat h
    rw [Char.ofNat, dif_pos hvalid] at hnumber
    exact hnumber
  · intro h
    rw [h, Char.ofNat_toNat]

/-- Between the same words different characters make different messages. -/
lemma append_singleton_inj (s t : String) (a b : Char) :
    s ++ String.singleton a ++ t = s ++ String.singleton b ++ t ↔ a = b := by
  simp [String.ext_iff]

/-- After a backslash a character is quoted as it stands if its first byte is its number. -/
lemma invalidEscape_message_eq_iff (c : Char) :
    (SyntaxError.invalidEscape c).message =
        "invalid escape sequence '\\" ++ String.singleton c ++ "'" ↔
      c.toNat < 0x80 ∨ c = 'Ã' :=
  (append_singleton_inj _ _ _ _).trans (ofNat_leadByte_eq_iff c)

/-- What the errors of the reader quote.

Whatever the text, there is one error of code 103 for each character that begins no token, in their
order; it begins where the character stands and quotes it. There is one error of code 104 for each
backslash that is no escape with the character after it; it begins at the backslash, and it quotes
the backslash and that character exactly if the character has one byte or is `Ã`. -/
theorem scan_quotes_characters (text : String) :
    ∃ d : Dissection [] 0 text.toList,
      (scan text).2 = .ofList d.faults ∧
      (Fault.withCode 103 d.faults =
          d.strays.map fun y => ⟨strayCharacter y.2, .over y.1 [y.2]⟩) ∧
      (∀ y ∈ d.strays,
        (∃ rest, text.toList = y.1 ++ y.2 :: rest ∧ (Word.stray y.2).Proper rest) ∧
        (strayCharacter y.2).message =
          "unexpected character '" ++ String.singleton y.2 ++ "'") ∧
      (Fault.withCode 104 d.faults =
          d.invalids.map fun y => ⟨.invalidEscape y.2, .over y.1 ['\\', y.2]⟩) ∧
      ∀ y ∈ d.invalids,
        (∃ rest, text.toList = y.1 ++ '\\' :: y.2 :: rest ∧ escape? y.2 = none) ∧
        ((SyntaxError.invalidEscape y.2).message =
            "invalid escape sequence '\\" ++ String.singleton y.2 ++ "'" ↔
          y.2.toNat < 0x80 ∨ y.2 = 'Ã') := by
  obtain ⟨d, hscan⟩ := exists_dissection_scan text
  refine ⟨d, by rw [hscan], d.withCode_strays, fun y hy => ?_, d.withCode_invalids, fun y hy => ?_⟩
  · exact ⟨d.exists_rest_of_mem_strays hy, strayCharacter_message y.2⟩
  · exact ⟨d.exists_rest_of_mem_invalids hy, invalidEscape_message_eq_iff y.2⟩

/-- After a backslash, only the first byte of an accented letter is quoted. -/
theorem scan_misquotes_accent :
    ∃ f ∈ (scan "\"\\é\"").2.kept, f.error.code = 104 ∧ f.span.first = ⟨1, 2⟩ ∧
      f.error.message = "invalid escape sequence '\\Ã'" ∧
      f.error.message ≠ "invalid escape sequence '\\é'" := by
  decide +kernel

end Lugha
