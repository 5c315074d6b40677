import Lugha.Parser.Expression
import Lugha.Token.Scan

/-!
# Reading programs

A program is a list of statements. A closing brace without an opening one is
reported and passed over.
-/

namespace Lugha

namespace Parser

/-- Reads the statements of a program, up to the end of the text or a full error
list. Every round reads a token. -/
def topLevel (expr : Parser Expr) : Nat → Cursor → List Stmt × Cursor
  | 0, c => ([], c)
  | rounds + 1, c =>
    if c.atEnd || c.faults.isFull then ([], c)
    else if c.atSymbol .closeBrace then
      topLevel expr rounds (c.report .strayBrace c.span).advance
    else
      match statement expr c with
      | (some s, c) =>
        let (ss, c) := topLevel expr rounds c
        (s :: ss, c)
      | (none, c) => topLevel expr rounds c.synchronize

/-- Reads a program from a cursor. -/
def program (c : Cursor) : Program × Cursor :=
  let start := c.span
  let (stmts, c) := topLevel (expression maxNesting) c.rest.length c
  (⟨stmts, if stmts.isEmpty then start else start.merge c.previous⟩, c)

end Parser

/-- What reading a text gives: the statements that could be read, and what was wrong. -/
structure Parsed where
  program : Program
  diagnostics : Diagnostics

namespace Parsed

/-- The program, if nothing was wrong. -/
def accepted (p : Parsed) : Except Diagnostics Program :=
  if p.diagnostics.hasErrors then .error p.diagnostics else .ok p.program

end Parsed

/-- Reads a program from tokens. -/
def parseTokens (tokens : List Token) : Program × ErrorList Fault :=
  let (program, c) := Parser.program (.ofTokens tokens)
  (program, c.faults)

namespace Source

/-- Reads the program of a source. Malformed tokens are reported before malformed
statements. -/
def parse (s : Source) : Parsed :=
  let (tokens, lexical) := scan s.text
  let (program, grammatical) := parseTokens tokens
  ⟨program, (lexical.append grammatical).map s.diagnose⟩

end Source

end Lugha
