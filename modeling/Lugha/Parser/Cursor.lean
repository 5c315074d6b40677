import Lugha.Program
import Lugha.SyntaxError

/-!
# Reading a list of tokens

A cursor stands before the tokens that are still to be read. It remembers the
span of the token read last and collects what is wrong. A parser moves the
cursor and succeeds with a result or fails without one; a failed parser has
reported why.
-/

namespace Lugha

/-- A place in a list of tokens. -/
structure Cursor where
  rest : List Token
  previous : Span
  faults : ErrorList Fault

namespace Cursor

/-- Stands before the first of the given tokens. If no mark of the end stands last,
one is added at the span of the last token. -/
def ofTokens (tokens : List Token) : Cursor :=
  let marked :=
    match tokens.getLast? with
    | none => [⟨.endOfFile, .point .origin⟩]
    | some t => if t.kind.isEnd then tokens else tokens ++ [⟨.endOfFile, t.span⟩]
  ⟨marked, .point .origin, .empty⟩

/-- The next token. -/
def peek (c : Cursor) : Token :=
  c.rest.headD ⟨.endOfFile, c.previous⟩

/-- What the next token is. -/
def kind (c : Cursor) : TokenKind := c.peek.kind

/-- Where the next token stands. -/
def span (c : Cursor) : Span := c.peek.span

/-- Whether the tokens are at an end. -/
def atEnd (c : Cursor) : Bool := c.kind.isEnd

/-- Whether the next token is a given sign. -/
def atSymbol (c : Cursor) (s : Symbol) : Bool :=
  match c.kind with
  | .symbol t => t == s
  | _ => false

/-- Whether the next token is a given reserved word. -/
def atKeyword (c : Cursor) (k : Keyword) : Bool :=
  match c.kind with
  | .keyword l => l == k
  | _ => false

/-- Moves past the next token. -/
def advance (c : Cursor) : Cursor :=
  match c.rest with
  | [] => c
  | t :: rest => { c with rest, previous := t.span }

/-- Records an error. -/
def report (c : Cursor) (e : SyntaxError) (span : Span) : Cursor :=
  { c with faults := c.faults.push ⟨e, span⟩ }

/-- Whether a token begins a statement at which reading can resume. -/
def resumes : TokenKind → Bool
  | .keyword k =>
    match k with
    | .fanya | .kazi | .kama | .wakati | .rudisha | .vunja | .endelea => true
    | _ => false
  | _ => false

/-- Moves to where reading can resume after an error: past a semicolon, before a
closing brace, or before a word that begins a statement; `moved` says whether a
token was passed over, without which such a word does not count. -/
def resume (faults : ErrorList Fault) : Bool → Span → List Token → Cursor
  | _, previous, [] => ⟨[], previous, faults⟩
  | moved, previous, t :: rest =>
    match t.kind with
    | .endOfFile => ⟨t :: rest, previous, faults⟩
    | .symbol .semicolon => ⟨rest, t.span, faults⟩
    | .symbol .closeBrace => ⟨t :: rest, previous, faults⟩
    | kind =>
      if moved && resumes kind then ⟨t :: rest, previous, faults⟩
      else resume faults true t.span rest

/-- Skips the rest of a statement that could not be read. -/
def synchronize (c : Cursor) : Cursor :=
  resume c.faults false c.previous c.rest

end Cursor

/-- A parser moves the cursor and gives a result, or none if it failed. -/
def Parser (α : Type) : Type := Cursor → Option α × Cursor

namespace Parser

variable {α β : Type}

/-- Runs one parser and then a second one that depends on its result. -/
def andThen (p : Parser α) (f : α → Parser β) : Parser β := fun c =>
  match p c with
  | (some a, c) => f a c
  | (none, c) => (none, c)

instance : Monad Parser where
  pure a := fun c => (some a, c)
  bind := andThen

/-- Looks at the cursor without moving it. -/
def look (f : Cursor → α) : Parser α := fun c => (some (f c), c)

/-- Reads the next token. -/
def next : Parser Token := fun c => (some c.peek, c.advance)

/-- Records an error and goes on. -/
def warn (e : SyntaxError) (span : Span) : Parser Unit := fun c =>
  (some (), c.report e span)

/-- Records an error and fails. -/
def failAt (e : SyntaxError) (span : Span) : Parser α := fun c =>
  (none, c.report e span)

/-- Records an error that quotes the next token, and fails. -/
def failHere (e : TokenKind → SyntaxError) : Parser α := fun c =>
  (none, c.report (e c.kind) c.span)

/-- Reads a sign if it is the next token, and tells whether it was. -/
def eat (s : Symbol) : Parser Bool := fun c =>
  if c.atSymbol s then (some true, c.advance) else (some false, c)

/-- Reads a sign that has to stand here. -/
def expect (s : Symbol) : Parser Token := fun c =>
  if c.atSymbol s then next c else failHere (.expectedSymbol s) c

/-- Reads the sign that closes a bracket. If the text ends instead, the error is
reported where the bracket was opened. -/
def close (s : Symbol) (opened : Span) : Parser Token := fun c =>
  if c.atEnd then failAt (.unclosedBracket s) opened c else expect s c

/-- Reads a name. -/
def ident : Parser Ident := fun c =>
  match c.kind with
  | .name n => (some ⟨n, c.span⟩, c.advance)
  | _ => failHere .expectedName c

end Parser

end Lugha
