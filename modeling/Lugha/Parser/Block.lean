import Lugha.Parser.Cursor

/-!
# Reading statements and blocks

The parsers of this file take the parser of expressions as an argument: a
statement inside an expression reads its own expressions one level deeper.
A statement that cannot be read is skipped, and reading resumes after it.
-/

namespace Lugha.Parser

/-- Reads what follows `fanya`: a name, `=` and a value. A function without a name
takes the name it is bound to. -/
def binding (expr : Parser Expr) : Parser Stmt := do
  let start ← next
  let name ← ident
  let _ ← expect .assign
  let value ← expr
  return .bind (start.span.merge value.span) name (value.named name)

/-- Reads `name = value`. -/
def assignment (expr : Parser Expr) : Parser Stmt := do
  let name ← ident
  let _ ← expect .assign
  let value ← expr
  return .assign (name.span.merge value.span) name value

/-- Whether a `rudisha` that stands before the cursor has no value. -/
def endsReturn (c : Cursor) : Bool :=
  c.atSymbol .semicolon || c.atSymbol .closeBrace || c.atEnd

/-- Reads `rudisha` and its value, if it has one. -/
def returning (expr : Parser Expr) : Parser Stmt := do
  let start ← next
  if ← look endsReturn then
    return .returnNothing start.span
  else
    let value ← expr
    return .returnValue (start.span.merge value.span) value

/-- Reads an expression that stands as a statement. Only a name can be assigned. -/
def bare (expr : Parser Expr) : Parser Stmt := do
  let value ← expr
  if ← look (·.atSymbol .assign) then
    failAt .invalidTarget value.span
  else
    return .expr value

/-- Whether the tokens at the cursor assign to a name. -/
def assigns (c : Cursor) : Bool :=
  match c.rest with
  | ⟨.name _, _⟩ :: ⟨.symbol .assign, _⟩ :: _ => true
  | _ => false

/-- Reads a statement up to its semicolon. -/
def unterminated (expr : Parser Expr) : Parser Stmt := fun c =>
  match c.kind with
  | .keyword .fanya => binding expr c
  | .keyword .rudisha => returning expr c
  | .keyword .vunja => (some (.breakLoop c.span), c.advance)
  | .keyword .endelea => (some (.continueLoop c.span), c.advance)
  | _ => if assigns c then assignment expr c else bare expr c

/-- Reads a statement and the semicolon after it, if there is one. -/
def statement (expr : Parser Expr) : Parser Stmt := do
  let s ← unterminated expr
  let _ ← eat .semicolon
  return s

/-- Reads the statements of a block, up to its closing brace, the end of the text, or
a full error list. Every round reads a token, so the number of tokens bounds the
rounds. -/
def statements (expr : Parser Expr) : Nat → Cursor → List Stmt × Cursor
  | 0, c => ([], c)
  | rounds + 1, c =>
    if c.atSymbol .closeBrace || c.atEnd || c.faults.isFull then ([], c)
    else
      match statement expr c with
      | (some s, c) =>
        let (ss, c) := statements expr rounds c
        (s :: ss, c)
      | (none, c) => statements expr rounds c.synchronize

/-- Reads a block. -/
def block (expr : Parser Expr) : Parser Block := do
  let opened ← expect .openBrace
  let stmts ← fun c =>
    let (ss, c) := statements expr c.rest.length c
    (some ss, c)
  let closed ← close .closeBrace opened.span
  return .mk (opened.span.merge closed.span) stmts

end Lugha.Parser
