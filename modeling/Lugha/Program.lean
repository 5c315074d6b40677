import Lugha.Span

/-!
# Programs

The tree of a program: expressions, statements and blocks, each with the span of
the text it was read from.
-/

namespace Lugha

/-- The operators between two operands. -/
inductive BinaryOp where
  | either
  | both
  | equal
  | notEqual
  | less
  | greater
  | lessEqual
  | greaterEqual
  | add
  | sub
  | mul
  | div
  | mod
deriving DecidableEq, Repr, Inhabited

/-- The spelling of an operator. -/
def BinaryOp.text : BinaryOp → String
  | either => "||"
  | both => "&&"
  | equal => "=="
  | notEqual => "!="
  | less => "<"
  | greater => ">"
  | lessEqual => "<="
  | greaterEqual => ">="
  | add => "+"
  | sub => "-"
  | mul => "*"
  | div => "/"
  | mod => "%"

/-- The operators before one operand. -/
inductive UnaryOp where
  | negate
  | invert
deriving DecidableEq, Repr, Inhabited

/-- The spelling of an operator. -/
def UnaryOp.text : UnaryOp → String
  | negate => "-"
  | invert => "!"

/-- A name and where it stands. -/
structure Ident where
  name : String
  span : Span
deriving DecidableEq, Repr, Inhabited

mutual

/-- An expression. -/
inductive Expr where
  | number (span : Span) (value : Float)
  | text (span : Span) (value : String)
  | boolean (span : Span) (value : Bool)
  | null (span : Span)
  | name (span : Span) (value : String)
  | call (span : Span) (callee : Expr) (args : List Expr)
  | binary (span : Span) (op : BinaryOp) (left right : Expr)
  | unary (span : Span) (op : UnaryOp) (operand : Expr)
  | conditional (branches : Conditional)
  | loop (span : Span) (condition : Expr) (body : Block)
  | function (span : Span) (name : Option Ident) (params : List Ident) (body : Block)
  | paren (span : Span) (inner : Expr)

/-- A conditional: with no alternative, with a block, or with a further conditional. -/
inductive Conditional where
  | ifThen (span : Span) (condition : Expr) (yes : Block)
  | ifElse (span : Span) (condition : Expr) (yes no : Block)
  | elseIf (span : Span) (condition : Expr) (yes : Block) (next : Conditional)

/-- Statements between braces. -/
inductive Block where
  | mk (span : Span) (stmts : List Stmt)

/-- A statement. -/
inductive Stmt where
  | bind (span : Span) (name : Ident) (value : Expr)
  | assign (span : Span) (name : Ident) (value : Expr)
  | returnValue (span : Span) (value : Expr)
  | returnNothing (span : Span)
  | breakLoop (span : Span)
  | continueLoop (span : Span)
  | expr (value : Expr)

end

namespace Conditional

/-- The text of a conditional, its alternatives included. -/
def span : Conditional → Span
  | ifThen span .. | ifElse span .. | elseIf span .. => span

end Conditional

namespace Block

/-- The text of a block, its braces included. -/
def span : Block → Span
  | mk span _ => span

/-- The statements of a block. -/
def stmts : Block → List Stmt
  | mk _ stmts => stmts

end Block

namespace Expr

/-- The text of an expression. -/
def span : Expr → Span
  | number span _ | text span _ | boolean span _ | null span | name span _ => span
  | call span .. | binary span .. | unary span .. | loop span .. => span
  | function span .. | paren span _ => span
  | conditional branches => branches.span

/-- Whether an expression is a loop, perhaps between parentheses. -/
def isLoop : Expr → Bool
  | loop .. => true
  | paren _ inner => inner.isLoop
  | _ => false

/-- Gives a name to a function that has none; nothing else takes a name. -/
def named (name : Ident) : Expr → Expr
  | function span none params body => function span (some name) params body
  | e => e

/-- The call of a function by its name, without arguments. -/
def callByName (name : String) : Expr :=
  call .synthetic (.name .synthetic name) []

end Expr

namespace Stmt

/-- The text of a statement, without the semicolon after it. -/
def span : Stmt → Span
  | bind span .. | assign span .. | returnValue span _ | returnNothing span => span
  | breakLoop span | continueLoop span => span
  | expr value => value.span

/-- Whether a statement is a bare loop. -/
def isLoop : Stmt → Bool
  | expr value => value.isLoop
  | _ => false

/-- The name of the function that a statement declares. -/
def declared? : Stmt → Option Ident
  | expr (.function _ name _ _) => name
  | _ => none

end Stmt

/-- A whole program. -/
structure Program where
  stmts : List Stmt
  span : Span

end Lugha
