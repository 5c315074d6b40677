/-!
# JSON values and their text

A JSON value is written on one line without blanks, or over several lines with
two blanks for each level. The fields of an object keep their order. A number
that is not an integer keeps its spelling.
-/

namespace Lugha

/-- A JSON value. -/
inductive Json where
  | null
  | bool (b : Bool)
  | int (n : Int)
  /-- a number with a fraction or an exponent, as it is spelled -/
  | real (spelling : String)
  | str (s : String)
  | arr (items : List Json)
  | obj (fields : List (String × Json))
deriving Repr, Inhabited

namespace Json

/-- A hexadecimal digit, in lower case. -/
def hexDigit (n : Nat) : Char :=
  if n < 10 then Char.ofNat ('0'.toNat + n) else Char.ofNat ('a'.toNat + (n - 10))

/-- A character of a text between quotes. Quotes, backslashes and control characters
are escaped, all else stands for itself. -/
def escape (c : Char) : List Char :=
  if c = '"' then ['\\', '"']
  else if c = '\\' then ['\\', '\\']
  else if c = '\n' then ['\\', 'n']
  else if c = '\r' then ['\\', 'r']
  else if c = '\t' then ['\\', 't']
  else if c = '\x08' then ['\\', 'b']
  else if c = '\x0c' then ['\\', 'f']
  else if c.toNat < 0x20 then
    ['\\', 'u', '0', '0', hexDigit (c.toNat / 16), hexDigit (c.toNat % 16)]
  else [c]

/-- A text between quotes. -/
def quote (s : String) : String :=
  String.ofList ('"' :: (s.toList.flatMap escape ++ ['"']))

/-- The opening brace of an object. -/
def openObject : String := "\x7b"

/-- The closing brace of an object. -/
def closeObject : String := "\x7d"

mutual

/-- A value on one line, without blanks. -/
def compact : Json → String
  | null => "null"
  | bool b => if b then "true" else "false"
  | int n => toString n
  | real spelling => spelling
  | str s => quote s
  | arr items => "[" ++ ",".intercalate (compactItems items) ++ "]"
  | obj fields => openObject ++ ",".intercalate (compactFields fields) ++ closeObject

/-- The items of an array on one line. -/
def compactItems : List Json → List String
  | [] => []
  | v :: vs => v.compact :: compactItems vs

/-- The fields of an object on one line. -/
def compactFields : List (String × Json) → List String
  | [] => []
  | (name, v) :: fields => (quote name ++ ":" ++ v.compact) :: compactFields fields

end

/-- A new line at a level of nesting. -/
def newline (depth : Nat) : String :=
  "\n" ++ String.ofList (List.replicate (2 * depth) ' ')

/-- Items on lines of their own, between brackets. -/
def spread (opening closing : String) (depth : Nat) (items : List String) : String :=
  match items with
  | [] => opening ++ closing
  | items =>
    opening ++ newline (depth + 1) ++ ("," ++ newline (depth + 1)).intercalate items ++
      newline depth ++ closing

mutual

/-- A value over several lines, with two blanks for each level; `depth` is the level at
which it stands. -/
def prettyAt (depth : Nat) : Json → String
  | null => "null"
  | bool b => if b then "true" else "false"
  | int n => toString n
  | real spelling => spelling
  | str s => quote s
  | arr items => spread "[" "]" depth (prettyItems (depth + 1) items)
  | obj fields => spread openObject closeObject depth (prettyFields (depth + 1) fields)

/-- The items of an array, each as it stands on its lines. -/
def prettyItems (depth : Nat) : List Json → List String
  | [] => []
  | v :: vs => v.prettyAt depth :: prettyItems depth vs

/-- The fields of an object, each as it stands on its lines. -/
def prettyFields (depth : Nat) : List (String × Json) → List String
  | [] => []
  | (name, v) :: fields => (quote name ++ ": " ++ v.prettyAt depth) :: prettyFields depth fields

end

/-- A value over several lines. -/
def pretty (v : Json) : String := v.prettyAt 0

/-- A value that may be absent: `null` if it is. -/
def ofOption {α : Type} (f : α → Json) : Option α → Json
  | some a => f a
  | none => null

/-- An array of texts. -/
def ofTexts (texts : List String) : Json := arr (texts.map str)

/-- A natural number. -/
def ofNat (n : Nat) : Json := int n

/-- The field of an object; the last one, if a name occurs more than once. -/
def field? (name : String) : Json → Option Json
  | obj fields => (fields.reverse.find? fun f => f.1 == name).map Prod.snd
  | _ => none

end Json

end Lugha
