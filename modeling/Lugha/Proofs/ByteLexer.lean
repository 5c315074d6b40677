import Lugha.Proofs.ByteOrder
import Lugha.Token.Scan

/-!
# Reading tokens from bytes

`scan` reads the characters of a text.  The reader of this module is given the bytes of its UTF-8
form and knows nothing of characters.  It goes on byte by byte and counts columns by leaving out the
bytes that continue a character.  The signs of the language, its words and its numbers are made of
single bytes.  What stands between quotes is gathered in a buffer, one byte at a time, and an escape
is a backslash and a single byte.  The buffer is turned into a text when the quotation ends, and
bytes that are no UTF-8 are then replaced by U+FFFD.

Faults are noted with the wording that can be made of the bytes at hand.
-/

namespace Lugha

/-- A fault in its wording. -/
structure Notice where
  code : Nat
  message : String
  suggestion? : Option String
  span : Span
deriving DecidableEq

/-- How a fault is worded. -/
def Fault.notice (f : Fault) : Notice :=
  ⟨f.error.code, f.error.message, f.error.suggestion?, f.span⟩

namespace Bytes

/-! ### Bytes and characters -/

/-- Whether a byte continues a character: its first two bits are one and zero. -/
def isContinuation (b : UInt8) : Bool := b &&& 0xC0 == 0x80

/-- Bytes as characters, each on its own. -/
def latin (bs : List UInt8) : List Char := bs.map Char.ofUInt8

/-- Whether a byte may stand second in a character of three or four bytes. -/
def mayFollow (first second : UInt8) : Bool :=
  if first = 0xE0 then 0xA0 ≤ second && second ≤ 0xBF
  else if first = 0xED then 0x80 ≤ second && second ≤ 0x9F
  else if first = 0xF0 then 0x90 ≤ second && second ≤ 0xBF
  else if first = 0xF4 then 0x80 ≤ second && second ≤ 0x8F
  else 0xE1 ≤ first && first ≤ 0xF3 && isContinuation second

/-- How many bytes are replaced together, where no character begins: those that could have begun
one. -/
def brokenLength : List UInt8 → Nat
  | b :: c :: rest =>
    if mayFollow b c then
      if 0xF0 ≤ b && rest.head?.any isContinuation then 3 else 2
    else 1
  | _ => 1

/-- At least one byte is replaced. -/
lemma brokenLength_pos (bs : List UInt8) : 0 < brokenLength bs := by
  unfold brokenLength
  split
  · split
    · split <;> exact Nat.succ_pos _
    · exact Nat.one_pos
  · exact Nat.one_pos

/-- The text that bytes are the UTF-8 form of. What is no UTF-8 is replaced by U+FFFD. -/
def lossy (bs : List UInt8) : List Char :=
  if bs = [] then []
  else
    match bs.toByteArray.utf8DecodeChar? 0 with
    | some c => c :: lossy (bs.drop c.utf8Size)
    | none => '\ufffd' :: lossy (bs.drop (brokenLength bs))
termination_by bs.length
decreasing_by
  all_goals
    have hpos : 0 < bs.length := List.length_pos_iff.2 ‹_›
    rw [List.length_drop]
  · have hsize := c.utf8Size_pos
    omega
  · have hbroken := brokenLength_pos bs
    omega

/-! ### Places -/

/-- The position after reading one byte: a newline opens the next line, and a byte that continues a
character stays in the column of the character. -/
def step (p : Position) (b : UInt8) : Position :=
  if b = 0x0A then ⟨p.line + 1, 1⟩
  else if isContinuation b then p
  else ⟨p.line, p.column + 1⟩

/-- The position after reading bytes. -/
def past (p : Position) (bs : List UInt8) : Position := bs.foldl step p

/-- A place and the bytes that stand there. -/
structure Reader where
  here : Position
  rest : List UInt8

/-! ### Blanks and comments -/

/-- Skips blanks and comments. -/
def skipGap (notices : ErrorList Notice) :
    Gap → Position → List UInt8 → ErrorList Notice × Reader
  | .blank, p, 0x2F :: 0x2F :: rest => skipGap notices .lineComment (past p [0x2F, 0x2F]) rest
  | .blank, p, 0x2F :: 0x2A :: rest => skipGap notices (.blockComment p) (past p [0x2F, 0x2A]) rest
  | .blank, p, b :: rest =>
    if isBlank (.ofUInt8 b) then skipGap notices .blank (step p b) rest
    else (notices, ⟨p, b :: rest⟩)
  | .lineComment, p, b :: rest =>
    skipGap notices (if b = 0x0A then .blank else .lineComment) (step p b) rest
  | .blockComment _, p, 0x2A :: 0x2F :: rest => skipGap notices .blank (past p [0x2A, 0x2F]) rest
  | .blockComment opened, p, b :: rest => skipGap notices (.blockComment opened) (step p b) rest
  | .blockComment opened, p, [] =>
    (notices.push ⟨101, "unterminated block comment", some "close the comment with */",
      .upTo opened p⟩, ⟨p, []⟩)
  | _, p, [] => (notices, ⟨p, []⟩)

/-- A line comment goes on up to its newline. -/
lemma skipGap_lineComment (notices : ErrorList Notice) (p : Position) (b : UInt8)
    (rest : List UInt8) :
    skipGap notices .lineComment p (b :: rest) =
      skipGap notices (if b = 0x0A then .blank else .lineComment) (step p b) rest := by
  rw [skipGap]

/-! ### Texts between quotes -/

/-- The byte that an escape stands for. -/
def escape? : UInt8 → Option UInt8
  | 0x6E => some 0x0A
  | 0x74 => some 0x09
  | 0x72 => some 0x0D
  | 0x5C => some 0x5C
  | 0x22 => some 0x22
  | 0x27 => some 0x27
  | _ => none

/-- What reading between quotes gives: the bytes that were gathered, the notices so far and the
bytes that are left. -/
structure Gathered where
  buffer : List UInt8
  notices : ErrorList Notice
  after : Reader

/-- The notice of a text that is never closed. -/
def unclosedText (quote : UInt8) (opened p : Position) : Notice :=
  ⟨102, "unterminated string literal",
    some ("close the string with " ++ String.singleton (.ofUInt8 quote)), .upTo opened p⟩

/-- Reads a text between quotes, from just after the opening one. `gathered` holds the bytes so far,
the last one first. Of a character after a backslash only the first byte is at hand; it is kept, and
the bytes that continue it follow as any others. -/
def scanText (quote : UInt8) (opened : Position) :
    ErrorList Notice → List UInt8 → Position → List UInt8 → Gathered
  | notices, gathered, p, [] =>
    ⟨gathered.reverse, notices.push (unclosedText quote opened p), ⟨p, []⟩⟩
  | notices, gathered, p, b :: rest =>
    if b = quote then ⟨gathered.reverse, notices, ⟨step p b, rest⟩⟩
    else if b = 0x5C then
      match rest with
      | [] =>
        ⟨gathered.reverse, notices.push (unclosedText quote opened (step p b)), ⟨step p b, []⟩⟩
      | e :: rest =>
        let q := past p [b, e]
        match escape? e with
        | some d => scanText quote opened notices (d :: gathered) q rest
        | none =>
          let message := "invalid escape sequence '\\" ++ String.singleton (.ofUInt8 e) ++ "'"
          scanText quote opened (notices.push ⟨104, message, none, .upTo p q⟩) (e :: gathered) q
            rest
    else scanText quote opened notices (b :: gathered) (step p b) rest

/-- At the end of the bytes the quotation is not closed. -/
lemma scanText_nil (quote : UInt8) (opened : Position) (notices : ErrorList Notice)
    (gathered : List UInt8) (p : Position) :
    scanText quote opened notices gathered p [] =
      ⟨gathered.reverse, notices.push (unclosedText quote opened p), ⟨p, []⟩⟩ := by
  rw [scanText]

/-! ### Tokens -/

/-- What reading one token gives: its kind, unless its bytes were rejected; the notices so far; and
the bytes that are left. -/
structure Scanned where
  kind? : Option TokenKind
  notices : ErrorList Notice
  after : Reader

/-- Passes over a token of single bytes: over its first byte and over a number of further ones. -/
def pass (notices : ErrorList Notice) (p : Position) (b : UInt8) (rest : List UInt8)
    (kind : TokenKind) (further : Nat) : Scanned :=
  ⟨some kind, notices, ⟨past p (b :: rest.take further), rest.drop further⟩⟩

/-- Notes that no token begins with `b`. It is passed over with the bytes that continue the
character. -/
def reject (notices : ErrorList Notice) (p : Position) (b : UInt8) (rest : List UInt8) : Scanned :=
  if b = 0x26 ∨ b = 0x7C then
    let c := Char.ofUInt8 b
    let message := "unexpected character '" ++ String.singleton c ++ "'"
    let suggestion := "use '" ++ String.ofList [c, c] ++ "' for the logical operator"
    ⟨none, notices.push ⟨103, message, some suggestion, .upTo p (step p b)⟩, ⟨step p b, rest⟩⟩
  else
    let character := b :: rest.takeWhile isContinuation
    let message := "unexpected character '" ++ String.ofList (lossy character) ++ "'"
    let q := past p character
    ⟨none, notices.push ⟨103, message, none, .upTo p q⟩, ⟨q, rest.dropWhile isContinuation⟩⟩

/-- Reads the token that begins with `b` at `p`, or rejects the byte. -/
def scanToken (notices : ErrorList Notice) (p : Position) (b : UInt8) (rest : List UInt8) :
    Scanned :=
  let c := Char.ofUInt8 b
  if b = 0x22 ∨ b = 0x27 then
    let g := scanText b p notices [] (step p b) rest
    ⟨some (.text (String.ofList (lossy g.buffer))), g.notices, g.after⟩
  else if isDigit c then
    let (kind, word, _) := scanNumber c (latin rest)
    pass notices p b rest kind (word.length - 1)
  else if isNameStart c then
    let further := (latin rest).takeWhile isNamePart
    pass notices p b rest (wordKind (c :: further)) further.length
  else
    match symbol? c (latin rest) with
    | some (s, _) => pass notices p b rest (.symbol s) (s.text.length - 1)
    | none => reject notices p b rest

/-- Reads the tokens from a place on, up to the end of the bytes or until the error list is full.
Every round reads a byte. -/
def scanFrom : Nat → ErrorList Notice → Position → List UInt8 → List Token × ErrorList Notice
  | 0, notices, p, _ => ([endToken p], notices)
  | rounds + 1, before, p, bs =>
    match skipGap before .blank p bs with
    | (notices, ⟨q, []⟩) => ([endToken q], notices)
    | (notices, ⟨q, b :: rest⟩) =>
      if notices.isFull then ([endToken q], notices)
      else
        let s := scanToken notices q b rest
        let (tokens, notices) := scanFrom rounds s.notices s.after.here s.after.rest
        match s.kind? with
        | some kind => (⟨kind, .upTo q s.after.here⟩ :: tokens, notices)
        | none => (tokens, notices)

/-- The tokens that are read from bytes, with a mark at the end, and what is wrong with them. -/
def scan (bs : List UInt8) : List Token × ErrorList Notice :=
  scanFrom (bs.length + 1) .empty .origin bs

end Bytes

end Lugha
