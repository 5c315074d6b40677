import Lugha.Proofs.Lines
import Mathlib.Data.List.DropRight
import Mathlib.Data.String.Basic

/-!
# Lines cut from bytes

`Source.line?` takes a line from the pieces of a text.  The reader of this module knows the text as
bytes.  It keeps the offsets at which lines begin: the first byte and each byte after a newline.  A
line ends one byte before the next one begins, and the last line ends where the text ends.  What
stands between the two offsets is cut out, and that breaks off unless both of them lie between
characters and the second is not before the first.

Cutting never breaks off, and it gives the lines of the text.  A newline is a single byte, so one
byte before the beginning of the next line stands the newline that ends this one, and the bytes of a
character are never parted.
-/

namespace Lugha

/-! ### Cutting -/

namespace Text

/-- The offsets of the newlines among the bytes of a text that begins at a given offset. -/
def newlineOffsets (offset : Nat) : List Char → List Nat
  | [] => []
  | c :: cs =>
    if c = '\n' then offset :: newlineOffsets (offset + c.utf8Size) cs
    else newlineOffsets (offset + c.utf8Size) cs

/-- A slice that cannot be taken. -/
structure BadSlice where
  start : Nat
  stop : Nat

/-- The part of a text between two offsets of its bytes. Both have to lie inside the text and
between characters, and the first may not be after the second. -/
def slice (s : String) (start stop : Nat) : Except BadSlice String :=
  if h : start ≤ stop ∧ (⟨start⟩ : String.Pos.Raw).IsValid s ∧
      (⟨stop⟩ : String.Pos.Raw).IsValid s then
    .ok (s.extract (s.pos ⟨start⟩ h.2.1) (s.pos ⟨stop⟩ h.2.2))
  else .error ⟨start, stop⟩

end Text

namespace Source

/-- The offsets at which the lines of a source begin. -/
def lineStarts (s : Source) : List Nat :=
  0 :: (Text.newlineOffsets 0 s.text.toList).map (· + 1)

/-- The offset at which the line ends that begins at an offset of a given place in the list. -/
def lineStop (s : Source) (place : Nat) : Nat :=
  (s.lineStarts[place + 1]?.map (· - 1)).getD s.text.utf8ByteSize

/-- Cuts the line of a given number out of the bytes of a source, without its final carriage
returns. -/
def cutLine (s : Source) (n : Nat) : Except Text.BadSlice (Option String) :=
  if n = 0 then .ok none
  else
    match s.lineStarts[n - 1]? with
    | none => .ok none
    | some start => do
      let line ← Text.slice s.text start (s.lineStop (n - 1))
      return some (.ofList (line.toList.rdropWhile (· == '\r')))

end Source

/-! ### Pieces -/

namespace Text

/-- The pieces of a text are what is left when it is split at its newlines. -/
lemma pieces_eq_splitOn (cs : List Char) : pieces cs = cs.splitOn '\n' := by
  induction cs with
  | nil => rfl
  | cons c cs ih =>
    rw [pieces_cons, ih, List.splitOn_cons_eq_if_modifyHead]
    simp only [beq_iff_eq]

/-- Dropping carriage returns from the end. -/
lemma dropReturns_eq_rdropWhile (line : List Char) :
    dropReturns line = line.rdropWhile (· == '\r') := rfl

/-! ### Offsets -/

/-- The newlines of two texts that stand one after the other. -/
lemma newlineOffsets_append (offset : Nat) (xs ys : List Char) :
    newlineOffsets offset (xs ++ ys) =
      newlineOffsets offset xs ++ newlineOffsets (offset + String.utf8Len xs) ys := by
  induction xs generalizing offset with
  | nil => rfl
  | cons c xs ih =>
    have hoffset : offset + c.utf8Size + String.utf8Len xs =
        offset + String.utf8Len (c :: xs) := by
      rw [String.utf8Len_cons]
      omega
    rw [List.cons_append, newlineOffsets, newlineOffsets, ih, hoffset]
    split
    · rw [List.cons_append]
    · rfl

/-- There is an offset for each newline. -/
lemma length_newlineOffsets (offset : Nat) (cs : List Char) :
    (newlineOffsets offset cs).length = cs.count '\n' := by
  induction cs generalizing offset with
  | nil => rfl
  | cons c cs ih =>
    rw [newlineOffsets]
    split
    · next hc => rw [List.length_cons, ih, hc, List.count_cons_self]
    · next hc => rw [ih, List.count_cons_of_ne hc]

/-- A text without newlines has no offsets of newlines. -/
lemma newlineOffsets_of_not_mem {offset : Nat} {cs : List Char} (h : '\n' ∉ cs) :
    newlineOffsets offset cs = [] := by
  rw [← List.length_eq_zero_iff, length_newlineOffsets, List.count_eq_zero]
  exact h

/-- A slice between two parts of a text is what stands between them. -/
lemma slice_append (x y z : String) :
    slice (x ++ (y ++ z)) x.utf8ByteSize (x.utf8ByteSize + y.utf8ByteSize) = .ok y := by
  have hstart : x.rawEndPos.IsValid (x ++ (y ++ z)) :=
    String.Pos.Raw.isValid_rawEndPos.append_right _
  have hstop : (x ++ y).rawEndPos.IsValid (x ++ (y ++ z)) := by
    rw [← String.append_assoc]
    exact String.Pos.Raw.isValid_rawEndPos.append_right _
  have hstop' : (⟨x.utf8ByteSize + y.utf8ByteSize⟩ : String.Pos.Raw) = (x ++ y).rawEndPos :=
    congrArg _ (String.utf8ByteSize_append).symm
  have hbytes : (x ++ (y ++ z)).toByteArray.extract x.utf8ByteSize
      (x.utf8ByteSize + y.utf8ByteSize) = y.toByteArray := by
    rw [String.toByteArray_append, String.toByteArray_append]
    have hcut := @ByteArray.extract_append_size_add x.toByteArray (y.toByteArray ++ z.toByteArray) 0
      y.toByteArray.size
    rw [Nat.add_zero] at hcut
    exact hcut.trans (ByteArray.extract_append_eq_left rfl)
  rw [slice, dif_pos ⟨Nat.le_add_right _ _, hstart, hstop' ▸ hstop⟩]
  exact congrArg Except.ok (String.toByteArray_inj.1 hbytes)

end Text

/-! ### Lines -/

namespace Source

variable {s : Source}

/-- There are as many beginnings as lines. -/
lemma length_lineStarts (s : Source) : s.lineStarts.length = s.lineCount := by
  rw [lineCount_eq, lineStarts, List.length_cons, List.length_map, Text.length_newlineOffsets]

section Split

variable {before line after : List Char} (htext : s.text.toList = before ++ (line ++ after))

include htext

/-- A line begins behind what stands before it. -/
lemma lineStarts_of_split (hbefore : ∀ c ∈ before.getLast?, c = '\n') :
    s.lineStarts[before.count '\n']? = some (String.utf8Len before) := by
  obtain rfl | ⟨init, c, rfl⟩ := List.eq_nil_or_concat' before
  · rfl
  · obtain rfl : c = '\n' := hbefore c (List.getLast?_concat ..)
    have hnewlines : Text.newlineOffsets 0 s.text.toList = Text.newlineOffsets 0 init ++
        String.utf8Len init ::
          Text.newlineOffsets (String.utf8Len (init ++ ['\n'])) (line ++ after) := by
      rw [htext, Text.newlineOffsets_append, Text.newlineOffsets_append, List.append_assoc,
        Nat.zero_add, Nat.zero_add]
      rfl
    rw [List.count_append, List.count_singleton_self, lineStarts, List.getElem?_cons_succ,
      hnewlines, ← Text.length_newlineOffsets 0 init, List.getElem?_map,
      List.getElem?_append_right (Nat.le_refl _), Nat.sub_self, List.getElem?_cons_zero,
      Option.map_some, String.utf8Len_append]
    rfl

/-- A line ends before what stands after it. -/
lemma lineStop_of_split (hline : '\n' ∉ line) (hafter : ∀ c ∈ after.head?, c = '\n') :
    s.lineStop (before.count '\n') = String.utf8Len before + String.utf8Len line := by
  have hnewlines : Text.newlineOffsets 0 s.text.toList = Text.newlineOffsets 0 before ++
      Text.newlineOffsets (String.utf8Len before + String.utf8Len line) after := by
    rw [htext, Text.newlineOffsets_append, Text.newlineOffsets_append,
      Text.newlineOffsets_of_not_mem hline, List.nil_append, Nat.zero_add]
  have hnext : s.lineStarts[before.count '\n' + 1]? =
      (Text.newlineOffsets (String.utf8Len before + String.utf8Len line) after).head?.map
        (· + 1) := by
    rw [lineStarts, List.getElem?_cons_succ, hnewlines, ← Text.length_newlineOffsets 0 before,
      List.getElem?_map, List.getElem?_append_right (Nat.le_refl _), Nat.sub_self,
      List.head?_eq_getElem?]
  rw [lineStop, hnext]
  cases after with
  | nil =>
    have hsize := String.utf8Len_toList s.text
    rw [htext, List.append_nil, String.utf8Len_append] at hsize
    exact hsize.symm
  | cons c after =>
    obtain rfl : c = '\n' := hafter c rfl
    rfl

/-- What is cut out between the beginning of a line and its end is the line. -/
lemma slice_of_split : Text.slice s.text (String.utf8Len before)
    (String.utf8Len before + String.utf8Len line) = .ok (.ofList line) := by
  have hslice := Text.slice_append (.ofList before) (.ofList line) (.ofList after)
  rw [← String.ofList_append, ← String.ofList_append, ← htext, String.ofList_toList,
    String.utf8ByteSize_ofList, String.utf8ByteSize_ofList] at hslice
  exact hslice

end Split

/-- Cutting never breaks off, and gives the line of a given number. -/
lemma cutLine_eq (s : Source) (n : Nat) : s.cutLine n = .ok (s.line? n) := by
  obtain rfl | ⟨i, rfl⟩ : n = 0 ∨ ∃ i, n = i + 1 := by
    cases n with
    | zero => exact .inl rfl
    | succ i => exact .inr ⟨i, rfl⟩
  · rfl
  · rw [cutLine, line?, if_neg (Nat.succ_ne_zero i), if_neg (Nat.succ_ne_zero i),
      Nat.add_sub_cancel]
    cases hline : s.lines[i]? with
    | none =>
      have hlength : s.lineStarts.length ≤ i := by
        rw [length_lineStarts]
        exact List.getElem?_eq_none_iff.1 hline
      rw [List.getElem?_eq_none hlength, Option.map_none]
    | some line =>
      obtain ⟨htext, hnumber, hbefore, hplain, hafter⟩ := Text.isLine_of_getElem? hline
      obtain rfl := Nat.succ.inj hnumber
      rw [lineStarts_of_split htext hbefore, lineStop_of_split htext hplain hafter]
      dsimp only
      rw [slice_of_split htext, Option.map_some, Text.dropReturns_eq_rdropWhile]
      change Except.ok (some (String.ofList ((String.ofList line).toList.rdropWhile _))) = _
      rw [String.toList_ofList]

/-- The lines of a source are what is left when its text is split at its newlines.  There is a line
for each number from one to the number of lines, and it is shown without the carriage returns at its
end.  Cutting the lines out of the bytes of the text, by the offsets at which they begin, gives the
same lines and never breaks off.  Joined by newlines the lines give back the text. -/
theorem line?_eq_split (s : Source) :
    s.lines = s.text.toList.splitOn '\n' ∧
      (∀ n, s.line? n = none ↔ n = 0 ∨ s.lines.length < n) ∧
      (∀ i, s.line? (i + 1) =
        (s.lines[i]?).map fun line => String.ofList (line.rdropWhile (· == '\r'))) ∧
      s.lineCount = s.lines.length ∧ s.lineStarts.length = s.lines.length ∧
      (∀ n, s.cutLine n = .ok (s.line? n)) ∧
      ['\n'].intercalate s.lines = s.text.toList := by
  have hlines : s.lines = s.text.toList.splitOn '\n' := Text.pieces_eq_splitOn _
  refine ⟨hlines, fun n => ?_, fun i => ?_, rfl, length_lineStarts s, cutLine_eq s, ?_⟩
  · rw [line?]
    split
    · next hzero => exact iff_of_true rfl (.inl hzero)
    · next hpos =>
      rw [Option.map_eq_none_iff, List.getElem?_eq_none_iff]
      omega
  · rw [line?, if_neg (Nat.succ_ne_zero i), Nat.add_sub_cancel]
    rfl
  · rw [hlines, List.intercalate_splitOn]

end Source

end Lugha
