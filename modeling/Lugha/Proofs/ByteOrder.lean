import Mathlib.Data.String.Basic

/-!
# The order of texts and of their bytes

Texts are ordered by the numbers of their characters.  In UTF-8 a character is written with a first
byte, which tells how many bytes follow, and with the last digits of its number to the base 64.  A
greater number needs more bytes, and then its first byte is greater, or else its digits decide.  So
texts are ordered as their bytes are, whatever follows a character in which two texts differ.
-/

namespace Lugha

/-- The bytes in which a text is written. -/
def Text.bytes (s : String) : List UInt8 := s.toUTF8.data.toList

/-- The bytes of a text are those of its characters. -/
lemma Text.bytes_ofList (cs : List Char) :
    bytes (.ofList cs) = cs.flatMap String.utf8EncodeChar := by
  rw [bytes, String.toUTF8, String.toByteArray_ofList, List.utf8Encode, List.data_toByteArray]

/-- Bytes are compared as the numbers that they stand for. -/
lemma ofNat_cons_lt {m n : Nat} {xs ys : List UInt8} (hn : n < 256)
    (h : m < n ∨ m = n ∧ xs < ys) : UInt8.ofNat m :: xs < UInt8.ofNat n :: ys := by
  rw [List.cons_lt_cons_iff]
  refine h.imp (fun hlt => ?_) (fun ⟨heq, hlt⟩ => ⟨congrArg _ heq, hlt⟩)
  exact (UInt8.ofNat_lt_iff_lt (Nat.lt_trans hlt hn) hn).2 hlt

/-- Of two numbers the one with the greater leading part is greater, and at equal leading parts the
rest decides. -/
lemma div_lt_or_mod_lt {m n : Nat} (h : m < n) (b : Nat) :
    m / b < n / b ∨ m / b = n / b ∧ m % b < n % b := by
  have hm := Nat.div_add_mod m b
  have hn := Nat.div_add_mod n b
  rcases Nat.lt_or_eq_of_le (Nat.div_le_div_right (c := b) h.le) with hlt | heq
  · exact .inl hlt
  · rw [heq] at hm
    exact .inr ⟨heq, by omega⟩

/-- The last digits of a number to the base 64, as the bytes after the first one. -/
def continuation : Nat → Nat → List UInt8
  | 0, _ => []
  | k + 1, n => UInt8.ofNat (n / 64 ^ k % 64 + 128) :: continuation k n

/-- The digits decide which of two numbers is less. -/
lemma continuation_append_lt {k m n : Nat} (h : m % 64 ^ k < n % 64 ^ k) (xs ys : List UInt8) :
    continuation k m ++ xs < continuation k n ++ ys := by
  induction k with
  | zero => simp [Nat.mod_one] at h
  | succ k ih =>
    have hdigit := div_lt_or_mod_lt h (64 ^ k)
    have hdiv (x : Nat) : x % 64 ^ (k + 1) / 64 ^ k = x / 64 ^ k % 64 := by
      rw [pow_succ, Nat.mod_mul_right_div_self]
    have hmod (x : Nat) : x % 64 ^ (k + 1) % 64 ^ k = x % 64 ^ k := by
      rw [pow_succ, Nat.mod_mul_right_mod]
    rw [hdiv, hdiv, hmod, hmod] at hdigit
    exact ofNat_cons_lt (by omega) (hdigit.imp (by omega) fun ⟨heq, hlt⟩ => ⟨by omega, ih hlt⟩)

/-- The first byte of a character tells how many bytes follow, and holds the leading digit. -/
inductive FirstByte (n : Nat) : Nat → Nat → Prop
  | one (h : n < 0x80) : FirstByte n 0 0
  | two (h : 0x80 ≤ n) (h' : n < 0x800) : FirstByte n 1 0xC0
  | three (h : 0x800 ≤ n) (h' : n < 0x10000) : FirstByte n 2 0xE0
  | four (h : 0x10000 ≤ n) (h' : n < 0x110000) : FirstByte n 3 0xF0

/-- A first byte fits into eight bits. -/
lemma FirstByte.lt {n k mark : Nat} (h : FirstByte n k mark) : n / 64 ^ k + mark < 256 := by
  cases h <;> omega

/-- With a greater number come a greater first byte or as many bytes. -/
lemma FirstByte.lt_or_eq {m n k k' mark mark' : Nat} (h : FirstByte m k mark)
    (h' : FirstByte n k' mark') (hlt : m < n) :
    m / 64 ^ k + mark < n / 64 ^ k' + mark' ∨ k = k' ∧ mark = mark' := by
  cases h <;> cases h' <;> omega

/-- How a character is written. -/
lemma utf8EncodeChar_eq (c : Char) : ∃ k mark, FirstByte c.val.toNat k mark ∧
    String.utf8EncodeChar c = UInt8.ofNat (c.val.toNat / 64 ^ k + mark) ::
      continuation k c.val.toNat := by
  have hvalid : c.val.toNat < 0x110000 := by
    rcases c.valid with h | h <;> omega
  unfold String.utf8EncodeChar
  generalize c.val.toNat = n at hvalid
  have hdigit {x d : Nat} (h : x < d) : x % d = x := Nat.mod_eq_of_lt h
  dsimp only
  split_ifs
  · exact ⟨0, 0, .one (by omega), by simp [continuation]⟩
  · exact ⟨1, 0xC0, .two (by omega) (by omega), by
      simp [continuation, hdigit (show n / 64 < 32 by omega)]⟩
  · exact ⟨2, 0xE0, .three (by omega) (by omega), by
      simp [continuation, hdigit (show n / 4096 < 16 by omega)]⟩
  · exact ⟨3, 0xF0, .four (by omega) (by omega), by
      simp [continuation, hdigit (show n / 262144 < 8 by omega)]⟩

/-- A character with a greater number is written with later bytes, whatever follows it. -/
lemma utf8EncodeChar_append_lt {a b : Char} (h : a < b) (xs ys : List UInt8) :
    String.utf8EncodeChar a ++ xs < String.utf8EncodeChar b ++ ys := by
  obtain ⟨k, mark, ha, hencode⟩ := utf8EncodeChar_eq a
  obtain ⟨k', mark', hb, hencode'⟩ := utf8EncodeChar_eq b
  rw [hencode, hencode']
  refine ofNat_cons_lt hb.lt ?_
  rcases ha.lt_or_eq hb h with hlt | ⟨rfl, rfl⟩
  · exact .inl hlt
  · refine (div_lt_or_mod_lt h (64 ^ k)).imp (Nat.add_lt_add_right · mark) fun ⟨heq, hmod⟩ => ?_
    exact ⟨congrArg (· + mark) heq, continuation_append_lt hmod xs ys⟩

/-- Lists of characters are ordered as their bytes are. -/
lemma flatMap_utf8EncodeChar_lt {cs ds : List Char} (h : cs < ds) :
    cs.flatMap String.utf8EncodeChar < ds.flatMap String.utf8EncodeChar := by
  induction h with
  | @nil d ds =>
    obtain ⟨b, bs, hd⟩ := List.exists_cons_of_ne_nil (String.utf8EncodeChar_ne_nil (c := d))
    rw [List.flatMap_nil, List.flatMap_cons, hd]
    exact .nil
  | @rel c cs d ds hlt =>
    rw [List.flatMap_cons, List.flatMap_cons]
    exact utf8EncodeChar_append_lt hlt _ _
  | @cons c cs ds _ ih =>
    rw [List.flatMap_cons, List.flatMap_cons]
    exact List.append_left_lt ih

/-- Texts are ordered as their bytes are. -/
lemma Text.bytes_lt {s t : String} (h : s < t) : bytes s < bytes t := by
  have hchars := flatMap_utf8EncodeChar_lt (String.lt_iff_toList_lt.1 h)
  rwa [← bytes_ofList, ← bytes_ofList, String.ofList_toList, String.ofList_toList] at hchars

end Lugha
