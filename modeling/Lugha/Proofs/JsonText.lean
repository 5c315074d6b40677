import Lugha.Json.Reader
import Mathlib.Data.List.Forall2
import Mathlib.Data.List.TakeWhile
import Mathlib.Tactic.Common

/-!
# Reading JSON text back

A JSON value whose numbers are integers is read back from its text over several lines.

Each part is read up to its own end, whatever follows it: texts end with their quote, arrays
and objects with their bracket, and a number ends where no character continues it.  Blanks
before a part are skipped.  The induction is on the value, with the text that follows and the
fuel left open; the length of a text is fuel enough to read it, because every value, item and
field takes at least one character.
-/

namespace Lugha.Json

/-! ### Numbers that are spelled in one way -/

mutual

/-- Whether all numbers in a value are integers. -/
def isWhole : Json → Bool
  | null | bool _ | int _ | str _ => true
  | real _ => false
  | arr items => areWhole items
  | obj fields => haveWhole fields

/-- Whether all numbers in some values are integers. -/
def areWhole : List Json → Bool
  | [] => true
  | v :: vs => v.isWhole && areWhole vs

/-- Whether all numbers in some fields are integers. -/
def haveWhole : List (String × Json) → Bool
  | [] => true
  | (_, v) :: fields => v.isWhole && haveWhole fields

end

/-! ### Blanks -/

/-- Nothing but blanks. -/
def Blank (cs : List Char) : Prop := ∀ c ∈ cs, isSpace c

/-- A new line with the blanks after it. -/
lemma blank_newline (depth : Nat) : Blank (newline depth).toList := by
  intro c hc
  simp only [newline, String.toList_append, String.toList_ofList, List.mem_append,
    List.mem_replicate] at hc
  rcases hc with hc | ⟨-, rfl⟩
  · rw [List.mem_singleton.1 hc]
    rfl
  · rfl

/-- Nothing is skipped before a character that is no blank. -/
lemma skipSpace_cons {c : Char} (h : isSpace c = false) (rest : List Char) :
    skipSpace (c :: rest) = c :: rest := by
  simp [skipSpace, h]

section Skipping

variable {blank : List Char} (h : Blank blank)

include h

/-- Blanks are skipped. -/
lemma Blank.skipSpace (rest : List Char) :
    Json.skipSpace (blank ++ rest) = Json.skipSpace rest :=
  List.dropWhile_append_of_pos h

/-- Blanks before a value are skipped. -/
lemma Blank.readValue (fuel : Nat) (cs : List Char) :
    Json.readValue fuel (blank ++ cs) = Json.readValue fuel cs := by
  cases fuel with
  | zero => rfl
  | succ fuel => rw [Json.readValue, Json.readValue, h.skipSpace]

/-- Blanks before items are skipped. -/
lemma Blank.readItems (fuel : Nat) (cs : List Char) :
    Json.readItems fuel (blank ++ cs) = Json.readItems fuel cs := by
  cases fuel with
  | zero => rfl
  | succ fuel => rw [Json.readItems, Json.readItems, h.readValue]

/-- Blanks before fields are skipped. -/
lemma Blank.readFields (fuel : Nat) (cs : List Char) :
    Json.readFields fuel (blank ++ cs) = Json.readFields fuel cs := by
  cases fuel with
  | zero => rfl
  | succ fuel => rw [Json.readFields, Json.readFields, h.skipSpace]

end Skipping

/-! ### Texts -/

/-- Hexadecimal digits are read back. -/
lemma hexValue?_hexDigit {n : Nat} (h : n < 16) : hexValue? (hexDigit n) = some n := by
  have hall : ∀ n < 16, hexValue? (hexDigit n) = some n := by decide
  exact hall n h

/-- The four digits of a control character are read back. -/
lemma unit?_control {n : Nat} (h : n < 32) :
    unit? '0' '0' (hexDigit (n / 16)) (hexDigit (n % 16)) = some n := by
  have hhigh : hexValue? (hexDigit (n / 16)) = some (n / 16) := hexValue?_hexDigit (by omega)
  have hlow : hexValue? (hexDigit (n % 16)) = some (n % 16) := hexValue?_hexDigit (by omega)
  have hzero : hexValue? '0' = some 0 := rfl
  simp only [unit?, hzero, hhigh, hlow]
  exact congrArg some (by omega)

/-- A character is read back from its written form. -/
lemma readText_escape (c : Char) (read rest : List Char) :
    readText read (escape c ++ rest) = readText (c :: read) rest := by
  unfold escape
  split_ifs with hquote hbackslash hnewline hreturn htab hback hfeed hcontrol
  · subst hquote
    simp [readText, unescape?]
  · subst hbackslash
    simp [readText, unescape?]
  · subst hnewline
    simp [readText, unescape?]
  · subst hreturn
    simp [readText, unescape?]
  · subst htab
    simp [readText, unescape?]
  · subst hback
    simp [readText, unescape?]
  · subst hfeed
    simp [readText, unescape?]
  · have hsurrogate : ¬ (0xD800 ≤ c.toNat ∧ c.toNat < 0xDC00) := by omega
    have hsurrogate' : ¬ (0xDC00 ≤ c.toNat ∧ c.toNat < 0xE000) := by omega
    simp [readText, unit?_control hcontrol, hsurrogate, hsurrogate', Char.ofNat_toNat]
  · simp [readText, hbackslash, hcontrol]

/-- A text is read back from its written form, up to the quote after it. -/
lemma readText_quote (cs read rest : List Char) :
    readText read (cs.flatMap escape ++ '"' :: rest) = some (read.reverse ++ cs, rest) := by
  induction cs generalizing read with
  | nil => simp [readText]
  | cons c cs ih =>
    rw [List.flatMap_cons, List.append_assoc, readText_escape, ih]
    simp

/-- A text between quotes begins with a quote and is read back. -/
lemma toList_quote (s : String) (rest : List Char) :
    (quote s).toList ++ rest = '"' :: (s.toList.flatMap escape ++ '"' :: rest) := by
  simp [quote]

/-! ### Numbers -/

/-- No character of the text continues a number before it. -/
def EndsNumber (rest : List Char) : Prop :=
  ∀ c ∈ rest.head?, c.isDigit = false ∧ c ≠ '.' ∧ c ≠ 'e' ∧ c ≠ 'E'

/-- A number ends at the end of the text. -/
lemma endsNumber_nil : EndsNumber [] := by
  simp [EndsNumber]

/-- A number ends before a comma. -/
lemma endsNumber_comma (rest : List Char) : EndsNumber (',' :: rest) := by
  simp [EndsNumber]

/-- A number ends before a new line. -/
lemma endsNumber_newline (depth : Nat) (rest : List Char) :
    EndsNumber ((newline depth).toList ++ rest) := by
  simp [EndsNumber, newline]

/-- The digits of a natural number do not begin with a zero, unless it is zero. -/
lemma toDigits_eq_cons (n : Nat) :
    ∃ c cs, Nat.toDigits 10 n = c :: cs ∧ c.isDigit ∧ (∀ d ∈ cs, d.isDigit) ∧
      (c = '0' → cs = []) := by
  induction n using Nat.strongRecOn with
  | _ n ih =>
    by_cases hn : n < 10
    · rw [Nat.toDigits_of_lt_base hn]
      exact ⟨_, [], rfl, by simp [Nat.isDigit_digitChar, hn], by simp, fun _ => rfl⟩
    · -- the digits before the last are those of a smaller number, which is not zero
      obtain ⟨c, cs, hdigits, hc, hcs, hzero⟩ := ih (n / 10) (by omega)
      rw [Nat.toDigits_of_base_le (by omega) (by omega), hdigits]
      refine ⟨c, _, rfl, hc, ?_, ?_⟩
      · intro d hd
        rcases List.mem_append.1 hd with hd | hd
        · exact hcs d hd
        · rw [List.mem_singleton.1 hd, Nat.isDigit_digitChar]
          exact decide_eq_true (Nat.mod_lt n (by omega))
      · rintro rfl
        rw [hzero rfl] at hdigits
        have hvalue := Nat.ofDigitChars_ten_toDigits (n := n / 10)
        rw [hdigits] at hvalue
        have hsmall : n / 10 = 0 := hvalue.symm
        omega

/-- The digits of a natural number are read back, up to their end. -/
lemma readWhole_toDigits (n : Nat) {rest : List Char} (h : EndsNumber rest) :
    readWhole (Nat.toDigits 10 n ++ rest) = some (Nat.toDigits 10 n, rest) := by
  obtain ⟨c, cs, hdigits, hc, hcs, hzero⟩ := toDigits_eq_cons n
  rw [hdigits]
  by_cases hfirst : c = '0'
  · rw [hzero hfirst, hfirst]
    rfl
  · have hall : ∀ d ∈ c :: cs, d.isDigit := by
      intro d hd
      rcases List.mem_cons.1 hd with rfl | hd
      · exact hc
      · exact hcs d hd
    have hstop : rest.takeWhile Char.isDigit = [] ∧ rest.dropWhile Char.isDigit = rest := by
      cases rest with
      | nil => exact ⟨rfl, rfl⟩
      | cons d rest => simp [(h d rfl).1]
    have htake : (c :: cs ++ rest).takeWhile Char.isDigit = c :: cs := by
      rw [List.takeWhile_append_of_pos hall, hstop.1, List.append_nil]
    have hdrop : (c :: cs ++ rest).dropWhile Char.isDigit = rest := by
      rw [List.dropWhile_append_of_pos hall, hstop.2]
    rw [readWhole]
    · rw [readDigits, htake, hdrop]
    · intro rest' heq
      exact hfirst (List.cons.inj heq).1

/-- No fraction is read where a number ends. -/
lemma readFraction_of_ends {rest : List Char} (h : EndsNumber rest) :
    readFraction rest = some ([], rest) := by
  unfold readFraction
  split
  · exact absurd rfl (h '.' rfl).2.1
  · rfl

/-- No exponent is read where a number ends. -/
lemma readExponent_of_ends {rest : List Char} (h : EndsNumber rest) :
    readExponent rest = some ([], rest) := by
  cases rest with
  | nil => rfl
  | cons c rest => simp [readExponent, (h c rfl).2.2]

/-- The value of the digits of a natural number. -/
lemma digitsValue_toDigits (n : Nat) : digitsValue (Nat.toDigits 10 n) = n := by
  have hvalue := Nat.ofDigitChars_ten_toDigits (n := n)
  rwa [Nat.ofDigitChars_eq_foldl] at hvalue

/-- The characters of an integer. -/
lemma toList_toString_int (n : Int) :
    (toString n).toList =
      if n < 0 then '-' :: Nat.toDigits 10 n.natAbs else Nat.toDigits 10 n.natAbs := by
  cases n with
  | ofNat n =>
    have hsign : ¬ (Int.ofNat n < 0) := by simp
    rw [if_neg hsign]
    exact congrArg String.toList Nat.toString_eq_ofList_toDigits |>.trans String.toList_ofList
  | negSucc n =>
    have hsign : Int.negSucc n < 0 := Int.negSucc_lt_zero n
    rw [if_pos hsign]
    have htext : toString (Int.negSucc n) = "-" ++ Nat.repr (n + 1) := rfl
    simp only [htext, String.toList_append, Nat.repr_eq_ofList_toDigits, String.toList_ofList]
    rfl

/-- An integer is read back, up to its end. -/
lemma readNumber_toString (n : Int) {rest : List Char} (h : EndsNumber rest) :
    readNumber ((toString n).toList ++ rest) = some (int n, rest) := by
  have hwhole := readWhole_toDigits n.natAbs h
  have hvalue := digitsValue_toDigits n.natAbs
  rw [toList_toString_int]
  by_cases hsign : n < 0
  · have hne : n.natAbs ≠ 0 := by omega
    have hneg : -(n.natAbs : Int) = n := by omega
    rw [if_pos hsign, List.cons_append]
    generalize n.natAbs = m at hwhole hvalue hne hneg ⊢
    simp [readNumber, hwhole, readFraction_of_ends h, readExponent_of_ends h, number, hvalue, hne,
      hneg]
  · have hpos : (n.natAbs : Int) = n := by omega
    obtain ⟨c, cs, hdigits, hc, -⟩ := toDigits_eq_cons n.natAbs
    have hminus : c ≠ '-' := by
      rintro rfl
      cases hc
    rw [if_neg hsign]
    rw [hdigits] at hwhole hvalue ⊢
    simp only [List.cons_append] at hwhole ⊢
    generalize n.natAbs = m at hvalue hpos
    simp [readNumber, hminus, hwhole, readFraction_of_ends h, readExponent_of_ends h, number,
      hvalue, hpos]

/-! ### Values -/

/-- A text from which a value is read back, whatever follows it. It begins with a character that
is neither a blank nor the closing bracket of an array. -/
structure ReadsBack (v : Json) (text : List Char) : Prop where
  head : ∃ c cs, text = c :: cs ∧ isSpace c = false ∧ c ≠ ']'
  read : ∀ (fuel : Nat) (rest : List Char), EndsNumber rest → text.length < fuel →
    readValue fuel (text ++ rest) = some (v, rest)

/-- The name of a field, and a text from which its value is read back. -/
def FieldReadsBack (field : String × Json) (text : List Char) : Prop :=
  ∃ value, text = (quote field.1).toList ++ ':' :: ' ' :: value ∧ ReadsBack field.2 value

/-- The absent value. -/
lemma readsBack_null : ReadsBack null "null".toList := by
  refine ⟨⟨'n', _, rfl, rfl, by decide⟩, fun fuel rest _ hfuel => ?_⟩
  cases fuel with
  | zero => cases hfuel
  | succ fuel => rfl

/-- A truth value. -/
lemma readsBack_bool (b : Bool) : ReadsBack (bool b) (if b then "true" else "false").toList := by
  cases b with
  | false =>
    refine ⟨⟨'f', _, rfl, rfl, by decide⟩, fun fuel rest _ hfuel => ?_⟩
    cases fuel with
    | zero => cases hfuel
    | succ fuel => rfl
  | true =>
    refine ⟨⟨'t', _, rfl, rfl, by decide⟩, fun fuel rest _ hfuel => ?_⟩
    cases fuel with
    | zero => cases hfuel
    | succ fuel => rfl

/-- A text. -/
lemma readsBack_str (s : String) : ReadsBack (str s) (quote s).toList := by
  refine ⟨⟨'"', _, by rw [← List.append_nil (quote s).toList, toList_quote], rfl, by decide⟩,
    fun fuel rest _ hfuel => ?_⟩
  cases fuel with
  | zero => cases hfuel
  | succ fuel =>
    rw [toList_quote, readValue, skipSpace_cons rfl]
    simp only [readText_quote, Option.map_some, List.reverse_nil, List.nil_append,
      String.ofList_toList]

/-- The first character of an integer is a digit or a sign. -/
lemma toString_eq_cons (n : Int) :
    ∃ c cs, (toString n).toList = c :: cs ∧ (c.isDigit ∨ c = '-') := by
  obtain ⟨c, cs, hdigits, hc, -⟩ := toDigits_eq_cons n.natAbs
  rw [toList_toString_int, hdigits]
  split
  · exact ⟨'-', c :: cs, rfl, .inr rfl⟩
  · exact ⟨c, cs, rfl, .inl hc⟩

/-- An integer. Nothing else begins with a digit or a sign. -/
lemma readsBack_int (n : Int) : ReadsBack (int n) (toString n).toList := by
  obtain ⟨c, cs, htext, hc⟩ := toString_eq_cons n
  have hother {d : Char} (hd : d.isDigit = false ∧ d ≠ '-') : c ≠ d := by
    rintro rfl
    rcases hc with hc | hc
    · rw [hd.1] at hc
      cases hc
    · exact hd.2 hc
  have hspace : isSpace c = false := by
    refine Bool.eq_false_iff.2 fun hspace => ?_
    simp only [isSpace, Bool.or_eq_true, beq_iff_eq] at hspace
    rcases hspace with ((rfl | rfl) | rfl) | rfl <;> exact hother (by decide) rfl
  refine ⟨⟨c, cs, htext, hspace, hother (by decide)⟩, fun fuel rest hrest hfuel => ?_⟩
  have hnumber := readNumber_toString n hrest
  cases fuel with
  | zero => cases hfuel
  | succ fuel =>
    rw [htext, List.cons_append] at hnumber ⊢
    rw [readValue, skipSpace_cons hspace]
    split
    case h_7 => exact hnumber
    all_goals
      next heq => exact absurd (List.cons.inj heq).1 (hother (by decide))

/-! ### Arrays and objects -/

/-- Items with a comma and a new line between them. -/
def listed (depth : Nat) (items : List String) : List Char :=
  (("," ++ newline depth).intercalate items).toList

/-- One item. -/
lemma listed_singleton (depth : Nat) (t : String) : listed depth [t] = t.toList := by
  rw [listed, String.intercalate_singleton]

/-- An item before others. -/
lemma listed_cons_cons (depth : Nat) (t u : String) (ts : List String) :
    listed depth (t :: u :: ts) =
      t.toList ++ ',' :: ((newline depth).toList ++ listed depth (u :: ts)) := by
  rw [listed, listed, String.intercalate_cons_cons]
  simp

/-- Items between brackets, each on lines of its own. -/
lemma toList_spread_cons (opening closing : String) (depth : Nat) (t : String) (ts : List String) :
    (spread opening closing depth (t :: ts)).toList =
      opening.toList ++ ((newline (depth + 1)).toList ++ (listed (depth + 1) (t :: ts) ++
        ((newline depth).toList ++ closing.toList))) := by
  simp [spread, listed]

/-- Items are read back up to the bracket after them. -/
lemma readItems_listed {v : Json} {vs : List Json} {t : String} {ts : List String}
    (hv : ReadsBack v t.toList) (hvs : List.Forall₂ (fun v t => ReadsBack v t.toList) vs ts)
    (depth fuel : Nat) (rest : List Char)
    (hfuel : (listed (depth + 1) (t :: ts)).length + 1 < fuel) :
    readItems fuel (listed (depth + 1) (t :: ts) ++ ((newline depth).toList ++ ']' :: rest)) =
      some (v :: vs, rest) := by
  induction hvs generalizing v t fuel with
  | nil =>
    rw [listed_singleton] at hfuel ⊢
    cases fuel with
    | zero => cases hfuel
    | succ fuel =>
      have hends := endsNumber_newline depth (']' :: rest)
      rw [readItems, hv.read fuel _ hends (by omega)]
      simp only [Option.bind_eq_bind, Option.bind_some, (blank_newline depth).skipSpace]
      rw [skipSpace_cons rfl]
      rfl
  | @cons w u ws us hw _ ih =>
    rw [listed_cons_cons] at hfuel ⊢
    simp only [List.cons_append, List.append_assoc, List.length_append, List.length_cons]
      at hfuel ⊢
    cases fuel with
    | zero => cases hfuel
    | succ fuel =>
      have hends := endsNumber_comma ((newline (depth + 1)).toList ++
        (listed (depth + 1) (u :: us) ++ ((newline depth).toList ++ ']' :: rest)))
      rw [readItems, hv.read fuel _ hends (by omega)]
      simp only [Option.bind_eq_bind, Option.bind_some]
      rw [skipSpace_cons rfl]
      simp only [(blank_newline (depth + 1)).readItems, ih hw fuel (by omega)]
      rfl

/-- One field is read back. Then comes the end of the object or a comma and further fields. -/
lemma FieldReadsBack.read {field : String × Json} {text : List Char}
    (h : FieldReadsBack field text) (fuel : Nat) {rest : List Char} (hrest : EndsNumber rest)
    (hfuel : text.length < fuel) :
    (∀ left, skipSpace rest = '}' :: left →
      readFields (fuel + 1) (text ++ rest) = some ([field], left)) ∧
    (∀ left, skipSpace rest = ',' :: left →
      readFields (fuel + 1) (text ++ rest) =
        (readFields fuel left).map fun r => (field :: r.1, r.2)) := by
  obtain ⟨value, rfl, hvalue⟩ := h
  have hblank : Blank [' '] := fun c hc => List.mem_singleton.1 hc ▸ rfl
  have hread : readValue fuel (' ' :: (value ++ rest)) = some (field.2, rest) := by
    have hskip := hblank.readValue fuel (value ++ rest)
    simp only [List.length_append, List.length_cons] at hfuel
    rw [hvalue.read fuel rest hrest (by omega)] at hskip
    exact hskip
  simp only [List.append_assoc, List.cons_append]
  rw [readFields, toList_quote, skipSpace_cons rfl]
  simp only [readText_quote, Option.bind_eq_bind, Option.bind_some]
  rw [skipSpace_cons rfl]
  simp only [hread, Option.bind_some]
  refine ⟨fun left hleft => ?_, fun left hleft => ?_⟩
  · rw [hleft]
    simp
  · rw [hleft]
    cases hmore : readFields fuel left <;> simp [hmore]

/-- Fields are read back up to the brace after them. -/
lemma readFields_listed {field : String × Json} {fields : List (String × Json)} {t : String}
    {ts : List String} (hfield : FieldReadsBack field t.toList)
    (hfields : List.Forall₂ (fun field t => FieldReadsBack field t.toList) fields ts)
    (depth fuel : Nat) (rest : List Char)
    (hfuel : (listed (depth + 1) (t :: ts)).length + 1 < fuel) :
    readFields fuel (listed (depth + 1) (t :: ts) ++ ((newline depth).toList ++ '}' :: rest)) =
      some (field :: fields, rest) := by
  induction hfields generalizing field t fuel with
  | nil =>
    rw [listed_singleton] at hfuel ⊢
    cases fuel with
    | zero => cases hfuel
    | succ fuel =>
      refine (hfield.read fuel (endsNumber_newline depth ('}' :: rest)) (by omega)).1 rest ?_
      rw [(blank_newline depth).skipSpace, skipSpace_cons rfl]
  | @cons g u gs us hg _ ih =>
    rw [listed_cons_cons] at hfuel ⊢
    simp only [List.cons_append, List.append_assoc, List.length_append, List.length_cons]
      at hfuel ⊢
    cases fuel with
    | zero => cases hfuel
    | succ fuel =>
      refine ((hfield.read fuel (endsNumber_comma _) (by omega)).2 _ (skipSpace_cons rfl _)).trans ?_
      rw [(blank_newline (depth + 1)).readFields, ih hg fuel (by omega)]
      rfl

/-- An item is read where an array is open, as it does not close the array. -/
lemma ReadsBack.readValue_open {v : Json} {t : String} (hv : ReadsBack v t.toList)
    (ts : List String) (depth fuel : Nat) (rest : List Char) :
    readValue (fuel + 1)
        ('[' :: ((newline depth).toList ++ (listed depth (t :: ts) ++ rest))) =
      (readItems fuel (listed depth (t :: ts) ++ rest)).map fun r => (arr r.1, r.2) := by
  obtain ⟨c, cs, htext, hspace, hclose⟩ := hv.head
  have hlisted : ∃ ds, listed depth (t :: ts) = c :: ds := by
    cases ts with
    | nil => exact ⟨cs, by rw [listed_singleton, htext]⟩
    | cons u us => exact ⟨_, by rw [listed_cons_cons, htext, List.cons_append]⟩
  obtain ⟨ds, hlisted⟩ := hlisted
  rw [hlisted, List.cons_append, readValue, skipSpace_cons rfl]
  simp [(blank_newline depth).skipSpace, skipSpace_cons hspace, hclose]

/-- A field is read where an object is open, as it does not close the object. -/
lemma FieldReadsBack.readValue_open {field : String × Json} {t : String}
    (hfield : FieldReadsBack field t.toList) (ts : List String) (depth fuel : Nat)
    (rest : List Char) :
    readValue (fuel + 1)
        ('{' :: ((newline depth).toList ++ (listed depth (t :: ts) ++ rest))) =
      (readFields fuel (listed depth (t :: ts) ++ rest)).map fun r => (obj r.1, r.2) := by
  have hlisted : ∃ ds, listed depth (t :: ts) = '"' :: ds := by
    obtain ⟨value, htext, -⟩ := hfield
    rw [toList_quote] at htext
    cases ts with
    | nil => exact ⟨_, by rw [listed_singleton, htext]⟩
    | cons u us => exact ⟨_, by rw [listed_cons_cons, htext, List.cons_append]⟩
  obtain ⟨ds, hlisted⟩ := hlisted
  have hspace : isSpace '"' = false := rfl
  rw [hlisted, List.cons_append, readValue, skipSpace_cons rfl]
  simp [(blank_newline depth).skipSpace, skipSpace_cons hspace]

/-- An array. -/
lemma readsBack_arr {vs : List Json} {ts : List String}
    (h : List.Forall₂ (fun v t => ReadsBack v t.toList) vs ts) (depth : Nat) :
    ReadsBack (arr vs) (spread "[" "]" depth ts).toList := by
  cases h with
  | nil =>
    have htext : (spread "[" "]" depth []).toList = ['[', ']'] := by simp [spread]
    rw [htext]
    refine ⟨⟨'[', _, rfl, rfl, by decide⟩, fun fuel rest _ hfuel => ?_⟩
    cases fuel with
    | zero => cases hfuel
    | succ fuel => rfl
  | @cons v t vs ts hv hvs =>
    have htext : (spread "[" "]" depth (t :: ts)).toList = '[' :: ((newline (depth + 1)).toList ++
        (listed (depth + 1) (t :: ts) ++ ((newline depth).toList ++ [']']))) :=
      toList_spread_cons "[" "]" depth t ts
    rw [htext]
    refine ⟨⟨'[', _, rfl, rfl, by decide⟩, fun fuel rest hrest hfuel => ?_⟩
    simp only [List.cons_append, List.nil_append, List.append_assoc, List.length_append,
      List.length_cons] at hfuel ⊢
    cases fuel with
    | zero => cases hfuel
    | succ fuel =>
      rw [hv.readValue_open, readItems_listed hv hvs depth fuel rest (by omega)]
      rfl

/-- An object. -/
lemma readsBack_obj {fields : List (String × Json)} {ts : List String}
    (h : List.Forall₂ (fun field t => FieldReadsBack field t.toList) fields ts) (depth : Nat) :
    ReadsBack (obj fields) (spread openObject closeObject depth ts).toList := by
  cases h with
  | nil =>
    have htext : (spread openObject closeObject depth []).toList = ['{', '}'] := by
      simp [spread, openObject, closeObject]
    rw [htext]
    refine ⟨⟨'{', _, rfl, rfl, by decide⟩, fun fuel rest _ hfuel => ?_⟩
    cases fuel with
    | zero => cases hfuel
    | succ fuel => rfl
  | @cons field t fields ts hfield hfields =>
    have htext : (spread openObject closeObject depth (t :: ts)).toList =
        '{' :: ((newline (depth + 1)).toList ++ (listed (depth + 1) (t :: ts) ++
          ((newline depth).toList ++ ['}']))) :=
      toList_spread_cons openObject closeObject depth t ts
    rw [htext]
    refine ⟨⟨'{', _, rfl, rfl, by decide⟩, fun fuel rest hrest hfuel => ?_⟩
    simp only [List.cons_append, List.nil_append, List.append_assoc, List.length_append,
      List.length_cons] at hfuel ⊢
    cases fuel with
    | zero => cases hfuel
    | succ fuel =>
      rw [hfield.readValue_open, readFields_listed hfield hfields depth fuel rest (by omega)]
      rfl

/-! ### All values -/

mutual

/-- A value is read back from its text. -/
lemma readsBack_prettyAt (depth : Nat) : ∀ {v : Json}, v.isWhole →
    ReadsBack v (v.prettyAt depth).toList
  | null, _ => by
    rw [prettyAt]
    exact readsBack_null
  | bool b, _ => by
    rw [prettyAt]
    exact readsBack_bool b
  | int n, _ => by
    rw [prettyAt]
    exact readsBack_int n
  | real _, h => by simp [isWhole] at h
  | str s, _ => by
    rw [prettyAt]
    exact readsBack_str s
  | arr items, h => by
    rw [isWhole] at h
    rw [prettyAt]
    exact readsBack_arr (readsBack_prettyItems (depth + 1) h) depth
  | obj fields, h => by
    rw [isWhole] at h
    rw [prettyAt]
    exact readsBack_obj (readsBack_prettyFields (depth + 1) h) depth

/-- Items are read back from their texts. -/
lemma readsBack_prettyItems (depth : Nat) : ∀ {items : List Json}, areWhole items →
    List.Forall₂ (fun v t => ReadsBack v t.toList) items (prettyItems depth items)
  | [], _ => by
    rw [prettyItems]
    exact .nil
  | v :: vs, h => by
    rw [areWhole, Bool.and_eq_true] at h
    rw [prettyItems]
    exact .cons (readsBack_prettyAt depth h.1) (readsBack_prettyItems depth h.2)

/-- Fields are read back from their texts. -/
lemma readsBack_prettyFields (depth : Nat) : ∀ {fields : List (String × Json)}, haveWhole fields →
    List.Forall₂ (fun field t => FieldReadsBack field t.toList) fields (prettyFields depth fields)
  | [], _ => by
    rw [prettyFields]
    exact .nil
  | (name, v) :: fields, h => by
    rw [haveWhole, Bool.and_eq_true] at h
    rw [prettyFields]
    refine .cons ⟨(v.prettyAt depth).toList, by simp, readsBack_prettyAt depth h.1⟩ ?_
    exact readsBack_prettyFields depth h.2

end

/-- A value whose numbers are integers is what its text over several lines stands for. -/
lemma parse?_pretty {v : Json} (h : v.isWhole) : parse? v.pretty = some v := by
  have hread := (readsBack_prettyAt 0 h).read (v.pretty.toList.length + 1) [] endsNumber_nil
    (Nat.lt_succ_self _)
  rw [List.append_nil] at hread
  simp only [parse?, pretty] at hread ⊢
  rw [hread]
  rfl

end Lugha.Json
