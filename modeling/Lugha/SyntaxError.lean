import Lugha.ErrorList
import Lugha.Source
import Lugha.Token

/-!
# Syntax errors

What can be wrong with a program text. A syntax error is a cause; a fault is a
cause at a span; a diagnostic is a fault written out for the reader, with the
name of the source and the line it begins on.
-/

namespace Lugha

/-- The deepest nesting of expressions. -/
def maxNesting : Nat := 64

/-- The cause of a syntax error. -/
inductive SyntaxError where
  /-- One token was needed and another one found. -/
  | expectedSymbol (wanted : Symbol) (found : TokenKind)
  | expectedName (found : TokenKind)
  | expectedExpression (found : TokenKind)
  | strayBrace
  | duplicateParameter (name : String)
  /-- The text ends before an open bracket is closed. -/
  | unclosedBracket (wanted : Symbol)
  | unclosedComment
  | unclosedText (quote : Char)
  /-- One half of `&&` or `||`. -/
  | halfOperator (c : Char)
  | unexpectedCharacter (c : Char)
  | invalidEscape (c : Char)
  | invalidTarget
  | tooDeep
deriving Repr, Inhabited

/-- The first byte of the UTF-8 form of a character. -/
def leadByte (c : Char) : Nat :=
  let n := c.toNat
  if n < 0x80 then n
  else if n < 0x800 then 0xC0 + n / 0x40
  else if n < 0x10000 then 0xE0 + n / 0x1000
  else 0xF0 + n / 0x40000

namespace SyntaxError

/-- The number under which an error is listed. -/
def code : SyntaxError → Nat
  | expectedSymbol .. | expectedName _ | expectedExpression _ => 100
  | strayBrace | duplicateParameter _ => 100
  | unclosedBracket _ | unclosedComment => 101
  | unclosedText _ => 102
  | halfOperator _ | unexpectedCharacter _ => 103
  | invalidEscape _ => 104
  | invalidTarget => 105
  | tooDeep => 106

/-- The wording of an error. An invalid escape is quoted with the character whose
number is the first byte of the escaped one. -/
def message : SyntaxError → String
  | expectedSymbol wanted found =>
    "expected '" ++ wanted.text ++ "', got '" ++ found.quoted ++ "'"
  | expectedName found => "expected identifier, got '" ++ found.quoted ++ "'"
  | expectedExpression found => "expected expression, got '" ++ found.quoted ++ "'"
  | strayBrace => "unexpected '" ++ Symbol.closeBrace.text ++ "'"
  | duplicateParameter name => "duplicate parameter '" ++ name ++ "'"
  | unclosedBracket wanted =>
    "unclosed delimiter, expected '" ++ wanted.text ++ "' before end of file"
  | unclosedComment => "unterminated block comment"
  | unclosedText _ => "unterminated string literal"
  | halfOperator c | unexpectedCharacter c => "unexpected character '" ++ String.singleton c ++ "'"
  | invalidEscape c =>
    "invalid escape sequence '\\" ++ String.singleton (Char.ofNat (leadByte c)) ++ "'"
  | invalidTarget => "invalid assignment target, only a name can be assigned"
  | tooDeep => "expressions nest deeper than " ++ toString maxNesting ++ " levels"

/-- How the error could be mended, where that is clear. -/
def suggestion? : SyntaxError → Option String
  | unclosedComment => some "close the comment with */"
  | unclosedText quote => some ("close the string with " ++ String.singleton quote)
  | halfOperator c =>
    some ("use '" ++ String.ofList [c, c] ++ "' for the logical operator")
  | _ => none

end SyntaxError

/-- A syntax error and where it is. -/
structure Fault where
  error : SyntaxError
  span : Span
deriving Repr, Inhabited

/-- A syntax error written out for the reader. -/
structure Diagnostic where
  file : String
  code : Nat
  message : String
  span : Span
  sourceLine : String
  suggestion : Option String
deriving DecidableEq, Repr, Inhabited

/-- The written form `line:column: Ecode message`. -/
def Diagnostic.text (d : Diagnostic) : String :=
  d.span.text ++ ": E" ++ toString d.code ++ " " ++ d.message

/-- Writes out a fault found in a source. -/
def Source.diagnose (s : Source) (f : Fault) : Diagnostic where
  file := s.name
  code := f.error.code
  message := f.error.message
  span := f.span
  sourceLine := (s.line? f.span.first.line).getD ""
  suggestion := f.error.suggestion?

/-- The syntax errors of a source, the first ones written out. -/
abbrev Diagnostics := ErrorList Diagnostic

/-- The announcement of a list of syntax errors: a heading and a line for each. -/
def ErrorList.announcement (ds : Diagnostics) : String :=
  "Kuna Makosa Yafuatayo:" ++ String.join (ds.kept.map fun d => "\n\t" ++ d.text)

end Lugha
