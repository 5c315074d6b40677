import Lugha.SyntaxError

/-!
# Reading tokens

The text of a program is read from left to right. Blanks and comments between
tokens are skipped, a character that begins no token is reported and skipped,
and reading stops early once the error list is full. Every token is read by a
function that leaves no more text than it was given, and its first character is
always read, so reading ends.
-/

namespace Lugha

/-- Blank characters between tokens. -/
def isBlank (c : Char) : Bool :=
  c == ' ' || c == '\t' || c == '\r' || c == '\n'

/-- A decimal digit. -/
def isDigit (c : Char) : Bool := '0' ≤ c && c ≤ '9'

/-- A character that may begin a name. -/
def isNameStart (c : Char) : Bool :=
  'a' ≤ c && c ≤ 'z' || 'A' ≤ c && c ≤ 'Z' || c == '_'

/-- A character that may continue a name. -/
def isNamePart (c : Char) : Bool := isNameStart c || isDigit c

/-- A place in a text and what stands there. -/
structure Reader where
  here : Position
  rest : List Char
deriving Repr, Inhabited

/-! ### Blanks and comments -/

/-- What the text between two tokens is read as. -/
inductive Gap where
  | blank
  | lineComment
  | blockComment (opened : Position)

/-- Skips blanks and comments. A line comment ends with its line; a block comment
that is never closed is reported at its own span. -/
def skipGap (faults : ErrorList Fault) :
    Gap → Position → List Char → ErrorList Fault × Reader
  | .blank, p, '/' :: '/' :: rest => skipGap faults .lineComment (p.past ['/', '/']) rest
  | .blank, p, '/' :: '*' :: rest => skipGap faults (.blockComment p) (p.past ['/', '*']) rest
  | .blank, p, c :: rest =>
    if isBlank c then skipGap faults .blank (p.step c) rest else (faults, ⟨p, c :: rest⟩)
  | .lineComment, p, c :: rest =>
    skipGap faults (if c = '\n' then .blank else .lineComment) (p.step c) rest
  | .blockComment _, p, '*' :: '/' :: rest => skipGap faults .blank (p.past ['*', '/']) rest
  | .blockComment opened, p, c :: rest =>
    skipGap faults (.blockComment opened) (p.step c) rest
  | .blockComment opened, p, [] =>
    (faults.push ⟨.unclosedComment, .upTo opened p⟩, ⟨p, []⟩)
  | _, p, [] => (faults, ⟨p, []⟩)

/-- A line comment goes on up to its newline. -/
theorem skipGap_lineComment (faults : ErrorList Fault) (p : Position) (c : Char)
    (rest : List Char) :
    skipGap faults .lineComment p (c :: rest) =
      skipGap faults (if c = '\n' then .blank else .lineComment) (p.step c) rest := by
  rw [skipGap]

/-! ### Texts between quotes -/

/-- The character that an escape stands for. -/
def escape? : Char → Option Char
  | 'n' => some '\n'
  | 't' => some '\t'
  | 'r' => some '\r'
  | '\\' => some '\\'
  | '"' => some '"'
  | '\'' => some '\''
  | _ => none

/-- What reading one token gives: its kind, unless its text was rejected; the
errors so far; and the text that is left. -/
structure Scanned where
  kind? : Option TokenKind
  faults : ErrorList Fault
  after : Reader

/-- Reads a text between quotes, from just after the opening one. `read` holds the
characters so far, the last one first. A character after a backslash that is no
escape is reported and kept; a text that is never closed is reported and kept. -/
def scanText (quote : Char) (opened : Position) :
    ErrorList Fault → List Char → Position → List Char → Scanned
  | faults, read, p, [] =>
    ⟨some (.text (String.ofList read.reverse)),
      faults.push ⟨.unclosedText quote, .upTo opened p⟩, ⟨p, []⟩⟩
  | faults, read, p, ['\\'] =>
    ⟨some (.text (String.ofList read.reverse)),
      faults.push ⟨.unclosedText quote, .upTo opened (p.step '\\')⟩, ⟨p.step '\\', []⟩⟩
  | faults, read, p, '\\' :: c :: rest =>
    let q := p.past ['\\', c]
    match escape? c with
    | some d => scanText quote opened faults (d :: read) q rest
    | none => scanText quote opened (faults.push ⟨.invalidEscape c, .upTo p q⟩) (c :: read) q rest
  | faults, read, p, c :: rest =>
    if c = quote then
      ⟨some (.text (String.ofList read.reverse)), faults, ⟨p.step c, rest⟩⟩
    else scanText quote opened faults (c :: read) (p.step c) rest

/-! ### Words, numbers and signs -/

/-- The token kind of a word: a reserved word or a name. -/
def wordKind (word : List Char) : TokenKind :=
  match Keyword.ofText? (String.ofList word) with
  | some k => .keyword k
  | none => .name (String.ofList word)

/-- The digits after a point, if a digit follows the point. -/
def fraction (rest : List Char) : List Char :=
  match rest with
  | '.' :: more => more.takeWhile isDigit
  | _ => []

/-- Reads a number whose first digit is `c`. -/
def scanNumber (c : Char) (rest : List Char) : TokenKind × List Char × List Char :=
  let whole := c :: rest.takeWhile isDigit
  let rest := rest.dropWhile isDigit
  match fraction rest with
  | [] => (.number (decimalValue whole []), whole, rest)
  | digits =>
    (.number (decimalValue whole digits), whole ++ '.' :: digits, rest.drop (digits.length + 1))

/-- The sign that begins with `c`; the longer of two signs is taken. -/
def symbol? (c : Char) (rest : List Char) : Option (Symbol × List Char) :=
  match c, rest with
  | '=', '=' :: rest => some (.equal, rest)
  | '!', '=' :: rest => some (.notEqual, rest)
  | '<', '=' :: rest => some (.lessEqual, rest)
  | '>', '=' :: rest => some (.greaterEqual, rest)
  | '&', '&' :: rest => some (.both, rest)
  | '|', '|' :: rest => some (.either, rest)
  | '+', rest => some (.plus, rest)
  | '-', rest => some (.minus, rest)
  | '*', rest => some (.star, rest)
  | '/', rest => some (.slash, rest)
  | '%', rest => some (.percent, rest)
  | '!', rest => some (.bang, rest)
  | '=', rest => some (.assign, rest)
  | '<', rest => some (.less, rest)
  | '>', rest => some (.greater, rest)
  | '(', rest => some (.openParen, rest)
  | ')', rest => some (.closeParen, rest)
  | '{', rest => some (.openBrace, rest)
  | '}', rest => some (.closeBrace, rest)
  | ',', rest => some (.comma, rest)
  | ';', rest => some (.semicolon, rest)
  | _, _ => none

/-- The error for a character that begins no token. -/
def strayCharacter (c : Char) : SyntaxError :=
  if c = '&' ∨ c = '|' then .halfOperator c else .unexpectedCharacter c

/-- Reads the token that begins with `c` at `p`. A character that begins none is
reported and read. -/
def scanToken (faults : ErrorList Fault) (p : Position) (c : Char) (rest : List Char) : Scanned :=
  if c = '"' ∨ c = '\'' then
    scanText c p faults [] (p.step c) rest
  else if isDigit c then
    let (kind, word, rest) := scanNumber c rest
    ⟨some kind, faults, ⟨p.past word, rest⟩⟩
  else if isNameStart c then
    let word := c :: rest.takeWhile isNamePart
    ⟨some (wordKind word), faults, ⟨p.past word, rest.dropWhile isNamePart⟩⟩
  else
    match symbol? c rest with
    | some (s, rest) => ⟨some (.symbol s), faults, ⟨p.past s.text.toList, rest⟩⟩
    | none => ⟨none, faults.push ⟨strayCharacter c, .upTo p (p.step c)⟩, ⟨p.step c, rest⟩⟩

/-! ### Reading ends -/

/-- Skipping leaves no more text than there was. -/
theorem skipGap_length_le (faults : ErrorList Fault) (g : Gap) (p : Position) (cs : List Char) :
    (skipGap faults g p cs).2.rest.length ≤ cs.length := by
  fun_induction skipGap faults g p cs <;> simp_all <;> omega

/-- Reading a text between quotes leaves no more text than there was. -/
theorem scanText_length_le (quote : Char) (opened : Position) (faults : ErrorList Fault)
    (read : List Char) (p : Position) (cs : List Char) :
    (scanText quote opened faults read p cs).after.rest.length ≤ cs.length := by
  fun_induction scanText quote opened faults read p cs <;> simp_all <;> omega

/-- What follows the longest run of characters of a class is no longer than the text. -/
theorem length_dropWhile_le (p : Char → Bool) (cs : List Char) :
    (cs.dropWhile p).length ≤ cs.length :=
  (List.dropWhile_sublist p).length_le

/-- Reading a number leaves no more text than there was. -/
theorem scanNumber_length_le (c : Char) (rest : List Char) :
    (scanNumber c rest).2.2.length ≤ rest.length := by
  have h := length_dropWhile_le isDigit rest
  simp only [scanNumber]
  split
  · exact h
  · simp only [List.length_drop]
    omega

/-- Reading a sign leaves no more text than there was. -/
theorem symbol?_length_le {c : Char} {rest left : List Char} {s : Symbol}
    (h : symbol? c rest = some (s, left)) : left.length ≤ rest.length := by
  unfold symbol? at h
  split at h <;> simp_all +arith

/-- Reading a token leaves no more text than follows its first character. -/
theorem scanToken_length_le (faults : ErrorList Fault) (p : Position) (c : Char)
    (rest : List Char) : (scanToken faults p c rest).after.rest.length ≤ rest.length := by
  unfold scanToken
  split
  · exact scanText_length_le ..
  · split
    · exact scanNumber_length_le c rest
    · split
      · exact length_dropWhile_le isNamePart rest
      · split
        · rename_i h
          exact symbol?_length_le h
        · exact Nat.le_refl _

/-- The mark at the end of a text. -/
def endToken (p : Position) : Token := ⟨.endOfFile, .point p⟩

/-- Reads the tokens from a place on, up to the end of the text or until the error
list is full. -/
def scanFrom (before : ErrorList Fault) (p : Position) (cs : List Char) :
    List Token × ErrorList Fault :=
  match h : skipGap before .blank p cs with
  | (faults, ⟨q, []⟩) => ([endToken q], faults)
  | (faults, ⟨q, c :: rest⟩) =>
    if faults.isFull then ([endToken q], faults)
    else
      have : (scanToken faults q c rest).after.rest.length < cs.length := by
        have h₁ := skipGap_length_le before .blank p cs
        have h₂ := scanToken_length_le faults q c rest
        rw [h] at h₁
        simp only [List.length_cons] at h₁
        omega
      let s := scanToken faults q c rest
      let (tokens, faults) := scanFrom s.faults s.after.here s.after.rest
      match s.kind? with
      | some kind => (⟨kind, .upTo q s.after.here⟩ :: tokens, faults)
      | none => (tokens, faults)
termination_by cs.length

/-- The tokens of a text, with a mark at the end, and what is wrong with it. -/
def scan (text : String) : List Token × ErrorList Fault :=
  scanFrom .empty .origin text.toList

end Lugha
