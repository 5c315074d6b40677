import Lugha.Number.Decimal
import Lugha.Span

/-!
# Tokens

The words and signs of the language. A token is a kind together with the span
of the text it was read from; the text of a token is how messages quote it.
-/

namespace Lugha

/-- The reserved words, each named by its spelling. -/
inductive Keyword where
  /-- binds a name -/
  | fanya
  /-- a function without a name -/
  | unda
  /-- a function with a name -/
  | kazi
  /-- true -/
  | kweli
  /-- false -/
  | sikweli
  /-- the absent value -/
  | tupu
  /-- if -/
  | kama
  /-- else -/
  | sivyo
  /-- while -/
  | wakati
  /-- return -/
  | rudisha
  /-- break -/
  | vunja
  /-- continue -/
  | endelea
deriving DecidableEq, Repr, Inhabited

namespace Keyword

/-- Every reserved word. -/
def all : List Keyword :=
  [fanya, unda, kazi, kweli, sikweli, tupu, kama, sivyo, wakati, rudisha, vunja, endelea]

/-- The spelling of a reserved word. -/
def text : Keyword → String
  | fanya => "fanya"
  | unda => "unda"
  | kazi => "kazi"
  | kweli => "kweli"
  | sikweli => "sikweli"
  | tupu => "tupu"
  | kama => "kama"
  | sivyo => "sivyo"
  | wakati => "wakati"
  | rudisha => "rudisha"
  | vunja => "vunja"
  | endelea => "endelea"

/-- The reserved word of a given spelling. -/
def ofText? (word : String) : Option Keyword :=
  all.find? fun k => k.text == word

end Keyword

/-- The operators and the punctuation. -/
inductive Symbol where
  | plus
  | minus
  | star
  | slash
  | percent
  | bang
  | assign
  | equal
  | notEqual
  | less
  | lessEqual
  | greater
  | greaterEqual
  | both
  | either
  | openParen
  | closeParen
  | openBrace
  | closeBrace
  | comma
  | semicolon
deriving DecidableEq, Repr, Inhabited

/-- The spelling of an operator or a punctuation mark. -/
def Symbol.text : Symbol → String
  | plus => "+"
  | minus => "-"
  | star => "*"
  | slash => "/"
  | percent => "%"
  | bang => "!"
  | assign => "="
  | equal => "=="
  | notEqual => "!="
  | less => "<"
  | lessEqual => "<="
  | greater => ">"
  | greaterEqual => ">="
  | both => "&&"
  | either => "||"
  | openParen => "("
  | closeParen => ")"
  | openBrace => "\x7b"
  | closeBrace => "\x7d"
  | comma => ","
  | semicolon => ";"

/-- What a token is, apart from where it stands. -/
inductive TokenKind where
  | number (value : Float)
  | text (value : String)
  | name (value : String)
  | keyword (word : Keyword)
  | symbol (sign : Symbol)
  | endOfFile
deriving Repr, Inhabited

namespace TokenKind

/-- How a message quotes a token. -/
def quoted : TokenKind → String
  | number x => (Number.ofFloat x).plain
  | text s => "\"" ++ s ++ "\""
  | name s => s
  | keyword k => k.text
  | symbol s => s.text
  | endOfFile => "end of file"

/-- Whether a token is a reserved word. -/
def isKeyword : TokenKind → Bool
  | keyword _ => true
  | _ => false

/-- Whether a token marks the end of its text. -/
def isEnd : TokenKind → Bool
  | endOfFile => true
  | _ => false

end TokenKind

/-- A token and the span of its text. -/
structure Token where
  kind : TokenKind
  span : Span
deriving Repr, Inhabited

end Lugha
