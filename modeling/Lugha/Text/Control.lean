/-!
# Control sequences

A text for a terminal holds sequences that control how it is shown: they begin with the
escape character and are of several kinds, each with its own end. Where a text is not for
a terminal they are left out, and so are the other controls that are no white space.

White space inside a sequence is shown, and what follows it too, as if the sequence had
ended. It has not: it goes on where the next character stands that is not shown.
-/

namespace Lugha.Text

/-- What is being read. -/
inductive Sequence where
  /-- no sequence -/
  | none
  /-- the escape character was read -/
  | escape
  /-- intermediates after it -/
  | escapeMore
  /-- a command with parameters -/
  | command
  /-- the head of a device string: at its beginning, after parameters, after intermediates -/
  | device
  | deviceParam
  | deviceMore
  /-- a string that ends with a terminator -/
  | string
  /-- a string of the operating system, which a bell ends too -/
  | system
deriving DecidableEq, Repr, Inhabited

/-- White space among the characters below 128. -/
def isPlainSpace (c : Char) : Bool :=
  c == ' ' || c == '\t' || c == '\n' || c == '\x0c' || c == '\r'

/-- Whether the bytes of a character after its first one hold the terminator of strings. -/
def holdsTerminator (c : Char) : Bool :=
  let n := c.toNat
  0x80 ≤ n && (n % 64 == 0x1C || 0x800 ≤ n && n / 64 % 64 == 0x1C ||
    0x10000 ≤ n && n / 4096 % 64 == 0x1C)

namespace Sequence

/-- Whether a control inside a sequence is carried out at once. -/
def executes : Sequence → Bool
  | none | escape | escapeMore | command => true
  | _ => false

/-- What is being read after a character. -/
def next (s : Sequence) (c : Char) : Sequence :=
  let n := c.toNat
  if n = 0x18 ∨ n = 0x1A then none
  else if n = 0x1B then escape
  else if 0x80 ≤ n then if s = string ∧ holdsTerminator c then none else s
  else if n < 0x20 then if s = system ∧ n = 0x07 then none else s
  else if n = 0x7F then s
  else
    match s with
    | none => none
    | escape =>
      if n < 0x30 then escapeMore
      else if c = '[' then command
      else if c = ']' then system
      else if c = 'P' then device
      else if c = 'X' ∨ c = '^' ∨ c = '_' then string
      else none
    | escapeMore => if n < 0x30 then escapeMore else none
    | command => if n < 0x40 then command else none
    | device =>
      if n < 0x30 then deviceMore else if n < 0x40 then deviceParam else string
    | deviceParam =>
      if n < 0x30 then deviceMore else if n < 0x3C then deviceParam else string
    | deviceMore => if n < 0x30 then deviceMore else string
    | string => string
    | system => system

/-- Whether a character is shown. -/
def shows (s : Sequence) (c : Char) : Bool :=
  let n := c.toNat
  if n < 0x20 then s.executes && isPlainSpace c
  else s = none && n != 0x7F

end Sequence

/-- The characters that are shown. `showing` says that the last character was shown, after
which the next one is read as if no sequence were open. -/
def shownFrom : Bool → Sequence → List Char → List Char
  | _, _, [] => []
  | true, s, c :: cs =>
    if Sequence.none.shows c then
      c :: shownFrom true (if 0x80 ≤ c.toNat then .none else s) cs
    else shownFrom false (s.next c) cs
  | false, s, c :: cs =>
    if s.shows c then c :: shownFrom true (s.next c) cs
    else shownFrom false (s.next c) cs

/-- A text without control sequences and controls. -/
def withoutControls (s : String) : String :=
  String.ofList (shownFrom false .none s.toList)

end Lugha.Text
