import Lugha.Parser.Program
import Mathlib.Tactic.Common

/-!
# How trees are written

A tree is written as a list of tokens.  Brackets are part of the tree, so there is little
choice: a semicolon may stand after a statement, a comma may follow the last argument or
parameter, and a function that is bound by `fanya` to its own name may be written without
it.  `Expr.Spells` and its companions say which lists of tokens are written forms of a
tree, and `Program.Spells` says it of a program.

Not every tree is written so that it can be read again.  A tree is canonical if no operand
binds more loosely than its operator, callees and operands of signs are no larger than
they can be without brackets, the parameters of a function differ, and functions bound by
`fanya` have names.

The nesting of a tree is the number of levels on the longest way into it, where every
value of a statement, argument, condition and expression in parentheses is a level, and so
is every operand of a sign.
-/

namespace Lugha

/-! ### Operators -/

/-- The sign of an operator between two operands. -/
def BinaryOp.symbol : BinaryOp → Symbol
  | either => .either
  | both => .both
  | equal => .equal
  | notEqual => .notEqual
  | less => .less
  | greater => .greater
  | lessEqual => .lessEqual
  | greaterEqual => .greaterEqual
  | add => .plus
  | sub => .minus
  | mul => .star
  | div => .slash
  | mod => .percent

/-- The sign of an operator before an operand. -/
def UnaryOp.symbol : UnaryOp → Symbol
  | negate => .minus
  | invert => .bang

/-- How tightly an operator binds its operands. -/
def BinaryOp.tightness : BinaryOp → Nat
  | either => 0
  | both => 1
  | equal | notEqual | less | greater | lessEqual | greaterEqual => 2
  | add | sub => 3
  | mul | div | mod => 4

/-- How tightly an expression holds together: operators least, then signs before an
operand, and calls and all that has its own beginning most. -/
def Expr.tightness : Expr → Nat
  | .binary _ op _ _ => op.tightness
  | .unary .. => 5
  | _ => 6

/-! ### Written forms -/

/-- Items with commas between them. A comma may follow the last one. -/
inductive Separated {α : Type} (item : α → List TokenKind → Prop) :
    List α → List TokenKind → Prop
  | nil : Separated item [] []
  | last {a : α} {ts : List TokenKind} (h : item a ts) : Separated item [a] ts
  | trailing {a : α} {ts : List TokenKind} (h : item a ts) :
      Separated item [a] (ts ++ [.symbol .comma])
  | cons {a b : α} {as : List α} {ts us : List TokenKind} (h : item a ts)
      (hrest : Separated item (b :: as) us) :
      Separated item (a :: b :: as) (ts ++ .symbol .comma :: us)

/-- An item before others, if there are any. -/
lemma Separated.push {α : Type} {item : α → List TokenKind → Prop} {a : α} {as : List α}
    {ts us : List TokenKind} (hrest : Separated item as us) (h : item a ts) :
    Separated item (a :: as) (ts ++ .symbol .comma :: us) := by
  cases as with
  | nil =>
    cases hrest
    exact .trailing h
  | cons b as => exact .cons h hrest

/-- Items one after the other. Each may be followed by a semicolon. -/
inductive Terminated {α : Type} (item : α → List TokenKind → Prop) :
    List α → List TokenKind → Prop
  | nil : Terminated item [] []
  | plain {a : α} {as : List α} {ts us : List TokenKind} (h : item a ts)
      (hrest : Terminated item as us) : Terminated item (a :: as) (ts ++ us)
  | semicolon {a : α} {as : List α} {ts us : List TokenKind} (h : item a ts)
      (hrest : Terminated item as us) :
      Terminated item (a :: as) (ts ++ .symbol .semicolon :: us)

/-- A name is written as itself. -/
def Ident.Spells (i : Ident) (ts : List TokenKind) : Prop := ts = [.name i.name]

/-- The words before the parameters of a function. -/
def functionHead : Option Ident → List TokenKind
  | none => [.keyword .unda]
  | some name => [.keyword .kazi, .name name.name]

mutual

/-- The written forms of an expression. -/
inductive Expr.Spells : Expr → List TokenKind → Prop
  | number (span : Span) (x : Float) : Expr.Spells (.number span x) [.number x]
  | text (span : Span) (t : String) : Expr.Spells (.text span t) [.text t]
  | boolean (span : Span) (b : Bool) :
      Expr.Spells (.boolean span b) [.keyword (if b then .kweli else .sikweli)]
  | null (span : Span) : Expr.Spells (.null span) [.keyword .tupu]
  | name (span : Span) (n : String) : Expr.Spells (.name span n) [.name n]
  | call {span : Span} {callee : Expr} {args : List Expr} {ts us : List TokenKind}
      (hcallee : Expr.Spells callee ts) (hargs : Separated Expr.Spells args us) :
      Expr.Spells (.call span callee args)
        (ts ++ .symbol .openParen :: (us ++ [.symbol .closeParen]))
  | binary {span : Span} {op : BinaryOp} {left right : Expr} {ts us : List TokenKind}
      (hleft : Expr.Spells left ts) (hright : Expr.Spells right us) :
      Expr.Spells (.binary span op left right) (ts ++ .symbol op.symbol :: us)
  | unary {span : Span} {op : UnaryOp} {operand : Expr} {ts : List TokenKind}
      (hoperand : Expr.Spells operand ts) :
      Expr.Spells (.unary span op operand) (.symbol op.symbol :: ts)
  | conditional {branches : Conditional} {ts : List TokenKind}
      (hbranches : Conditional.Spells branches ts) : Expr.Spells (.conditional branches) ts
  | loop {span : Span} {condition : Expr} {body : Block} {ts us : List TokenKind}
      (hcondition : Expr.Spells condition ts) (hbody : Block.Spells body us) :
      Expr.Spells (.loop span condition body)
        (.keyword .wakati :: .symbol .openParen :: (ts ++ .symbol .closeParen :: us))
  | function {span : Span} {name : Option Ident} {params : List Ident} {body : Block}
      {ts us : List TokenKind} (hparams : Separated Ident.Spells params ts)
      (hbody : Block.Spells body us) :
      Expr.Spells (.function span name params body)
        (functionHead name ++ .symbol .openParen :: (ts ++ .symbol .closeParen :: us))
  | paren {span : Span} {inner : Expr} {ts : List TokenKind} (hinner : Expr.Spells inner ts) :
      Expr.Spells (.paren span inner)
        (.symbol .openParen :: (ts ++ [.symbol .closeParen]))

/-- The written forms of a conditional. -/
inductive Conditional.Spells : Conditional → List TokenKind → Prop
  | ifThen {span : Span} {condition : Expr} {yes : Block} {ts us : List TokenKind}
      (hcondition : Expr.Spells condition ts) (hyes : Block.Spells yes us) :
      Conditional.Spells (.ifThen span condition yes)
        (.keyword .kama :: .symbol .openParen :: (ts ++ .symbol .closeParen :: us))
  | ifElse {span : Span} {condition : Expr} {yes no : Block} {ts us vs : List TokenKind}
      (hcondition : Expr.Spells condition ts) (hyes : Block.Spells yes us)
      (hno : Block.Spells no vs) :
      Conditional.Spells (.ifElse span condition yes no)
        (.keyword .kama :: .symbol .openParen ::
          (ts ++ .symbol .closeParen :: (us ++ .keyword .sivyo :: vs)))
  | elseIf {span : Span} {condition : Expr} {yes : Block} {next : Conditional}
      {ts us vs : List TokenKind} (hcondition : Expr.Spells condition ts)
      (hyes : Block.Spells yes us) (hnext : Conditional.Spells next vs) :
      Conditional.Spells (.elseIf span condition yes next)
        (.keyword .kama :: .symbol .openParen ::
          (ts ++ .symbol .closeParen :: (us ++ .keyword .sivyo :: vs)))

/-- The written forms of a block. -/
inductive Block.Spells : Block → List TokenKind → Prop
  | mk {span : Span} {stmts : List Stmt} {ts : List TokenKind}
      (hstmts : Terminated Stmt.Spells stmts ts) :
      Block.Spells (.mk span stmts) (.symbol .openBrace :: (ts ++ [.symbol .closeBrace]))

/-- The written forms of a statement, without the semicolon after it. A function that is
bound may be written without a name; then it has the name to which it is bound. -/
inductive Stmt.Spells : Stmt → List TokenKind → Prop
  | bind {span : Span} {name : Ident} {value : Expr} {ts : List TokenKind}
      (hvalue : Expr.Spells value ts) :
      Stmt.Spells (.bind span name (value.named name))
        (.keyword .fanya :: .name name.name :: .symbol .assign :: ts)
  | assign {span : Span} {name : Ident} {value : Expr} {ts : List TokenKind}
      (hvalue : Expr.Spells value ts) :
      Stmt.Spells (.assign span name value) (.name name.name :: .symbol .assign :: ts)
  | returnValue {span : Span} {value : Expr} {ts : List TokenKind}
      (hvalue : Expr.Spells value ts) :
      Stmt.Spells (.returnValue span value) (.keyword .rudisha :: ts)
  | returnNothing (span : Span) : Stmt.Spells (.returnNothing span) [.keyword .rudisha]
  | breakLoop (span : Span) : Stmt.Spells (.breakLoop span) [.keyword .vunja]
  | continueLoop (span : Span) : Stmt.Spells (.continueLoop span) [.keyword .endelea]
  | expr {value : Expr} {ts : List TokenKind} (hvalue : Expr.Spells value ts) :
      Stmt.Spells (.expr value) ts

end

/-- The written forms of a program. -/
def Program.Spells (p : Program) (ts : List TokenKind) : Prop :=
  Terminated Stmt.Spells p.stmts ts

/-! ### Canonical trees -/

/-- Whether an expression is a function without a name. -/
def Expr.isNameless : Expr → Bool
  | .function _ none _ _ => true
  | _ => false

/-- Whether all parameters have different names. -/
def distinctNames (params : List Ident) : Bool :=
  decide (params.map (·.name)).Nodup

mutual

/-- Whether an expression is canonical. -/
def Expr.isCanonical : Expr → Bool
  | .number .. | .text .. | .boolean .. | .null .. | .name .. => true
  | .call _ callee args =>
    decide (6 ≤ callee.tightness) && callee.isCanonical && Expr.areCanonical args
  | .binary _ op left right =>
    decide (op.tightness ≤ left.tightness) && decide (op.tightness < right.tightness) &&
      left.isCanonical && right.isCanonical
  | .unary _ _ operand => decide (5 ≤ operand.tightness) && operand.isCanonical
  | .conditional branches => branches.isCanonical
  | .loop _ condition body => condition.isCanonical && body.isCanonical
  | .function _ _ params body => distinctNames params && body.isCanonical
  | .paren _ inner => inner.isCanonical

/-- Whether all of some expressions are canonical. -/
def Expr.areCanonical : List Expr → Bool
  | [] => true
  | e :: es => e.isCanonical && Expr.areCanonical es

/-- Whether a conditional is canonical. -/
def Conditional.isCanonical : Conditional → Bool
  | .ifThen _ condition yes => condition.isCanonical && yes.isCanonical
  | .ifElse _ condition yes no => condition.isCanonical && yes.isCanonical && no.isCanonical
  | .elseIf _ condition yes next =>
    condition.isCanonical && yes.isCanonical && next.isCanonical

/-- Whether a block is canonical. -/
def Block.isCanonical : Block → Bool
  | .mk _ stmts => Stmt.areCanonical stmts

/-- Whether all of some statements are canonical. -/
def Stmt.areCanonical : List Stmt → Bool
  | [] => true
  | stmt :: stmts => stmt.isCanonical && Stmt.areCanonical stmts

/-- Whether a statement is canonical. -/
def Stmt.isCanonical : Stmt → Bool
  | .bind _ _ value => !value.isNameless && value.isCanonical
  | .assign _ _ value | .returnValue _ value | .expr value => value.isCanonical
  | .returnNothing _ | .breakLoop _ | .continueLoop _ => true

end

/-- Whether a program is canonical. -/
def Program.isCanonical (p : Program) : Bool := Stmt.areCanonical p.stmts

/-! ### Nesting -/

mutual

/-- The levels inside an expression. -/
def Expr.nesting : Expr → Nat
  | .number .. | .text .. | .boolean .. | .null .. | .name .. => 0
  | .call _ callee args => max callee.nesting (Expr.nestingList args)
  | .binary _ _ left right => max left.nesting right.nesting
  | .unary _ _ operand => operand.nesting + 1
  | .conditional branches => branches.nesting
  | .loop _ condition body => max (condition.nesting + 1) body.nesting
  | .function _ _ _ body => body.nesting
  | .paren _ inner => inner.nesting + 1

/-- The levels of arguments. -/
def Expr.nestingList : List Expr → Nat
  | [] => 0
  | e :: es => max (e.nesting + 1) (Expr.nestingList es)

/-- The levels of a conditional. A conditional that follows as an alternative is no
deeper than the first. -/
def Conditional.nesting : Conditional → Nat
  | .ifThen _ condition yes => max (condition.nesting + 1) yes.nesting
  | .ifElse _ condition yes no => max (condition.nesting + 1) (max yes.nesting no.nesting)
  | .elseIf _ condition yes next => max (condition.nesting + 1) (max yes.nesting next.nesting)

/-- The levels of a block. -/
def Block.nesting : Block → Nat
  | .mk _ stmts => Stmt.nestingList stmts

/-- The levels of statements. -/
def Stmt.nestingList : List Stmt → Nat
  | [] => 0
  | stmt :: stmts => max stmt.nesting (Stmt.nestingList stmts)

/-- The levels of a statement. -/
def Stmt.nesting : Stmt → Nat
  | .bind _ _ value | .assign _ _ value | .returnValue _ value | .expr value =>
    value.nesting + 1
  | .returnNothing _ | .breakLoop _ | .continueLoop _ => 0

end

/-- The levels of a program. -/
def Program.nesting (p : Program) : Nat := Stmt.nestingList p.stmts

/-! ### Naming a function -/

namespace Expr

/-- A function with a name is not nameless. -/
@[simp] lemma isNameless_named (name : Ident) (e : Expr) :
    (e.named name).isNameless = false := by
  cases e with
  | function span n params body => cases n <;> rfl
  | _ => rfl

/-- A name does not change what is canonical. -/
@[simp] lemma isCanonical_named (name : Ident) (e : Expr) :
    (e.named name).isCanonical = e.isCanonical := by
  cases e with
  | function span n params body => cases n <;> simp [named, isCanonical]
  | _ => rfl

/-- A name does not change the nesting. -/
@[simp] lemma nesting_named (name : Ident) (e : Expr) :
    (e.named name).nesting = e.nesting := by
  cases e with
  | function span n params body => cases n <;> simp [named, nesting]
  | _ => rfl

/-- An expression is written with at least one token. -/
lemma Spells.ne_nil {e : Expr} {ts : List TokenKind} (h : e.Spells ts) : ts ≠ [] := by
  cases h with
  | conditional hbranches => cases hbranches <;> simp
  | @function _ name => cases name <;> simp [functionHead]
  | _ => simp

end Expr

/-- A statement is written with at least one token. -/
lemma Stmt.Spells.ne_nil {stmt : Stmt} {ts : List TokenKind} (h : stmt.Spells ts) :
    ts ≠ [] := by
  cases h with
  | expr hvalue => exact hvalue.ne_nil
  | _ => simp

end Lugha
