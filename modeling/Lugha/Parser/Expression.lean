import Lugha.Parser.Block

/-!
# Reading expressions

Operators bind from loosest to tightest: `||`, `&&`, comparisons, sums, products,
signs before an operand, calls. Operators of one level group to the left.

Every expression inside another one, and every sign before an operand, lies one
level deeper. The number of levels that are left is the argument on which the
reading of operands recurses; at zero the text is too deep.
-/

namespace Lugha.Parser

/-! ### Operators -/

/-- The operator of the loosest level. -/
def eitherOp? : TokenKind → Option BinaryOp
  | .symbol .either => some .either
  | _ => none

/-- The operator of the second level. -/
def bothOp? : TokenKind → Option BinaryOp
  | .symbol .both => some .both
  | _ => none

/-- The operators that compare. -/
def compareOp? : TokenKind → Option BinaryOp
  | .symbol .equal => some .equal
  | .symbol .notEqual => some .notEqual
  | .symbol .less => some .less
  | .symbol .greater => some .greater
  | .symbol .lessEqual => some .lessEqual
  | .symbol .greaterEqual => some .greaterEqual
  | _ => none

/-- The operators of a sum. -/
def sumOp? : TokenKind → Option BinaryOp
  | .symbol .plus => some .add
  | .symbol .minus => some .sub
  | _ => none

/-- The operators of a product. -/
def productOp? : TokenKind → Option BinaryOp
  | .symbol .star => some .mul
  | .symbol .slash => some .div
  | .symbol .percent => some .mod
  | _ => none

/-- The operators before an operand. -/
def unaryOp? : TokenKind → Option UnaryOp
  | .symbol .bang => some .invert
  | .symbol .minus => some .negate
  | _ => none

/-- Joins two operands. -/
def join (op : BinaryOp) (left right : Expr) : Expr :=
  .binary (left.span.merge right.span) op left right

/-- Reads the operators of one level and their right operands, and joins them to the
left operand one after the other. Every round reads a token. -/
def chain (op? : TokenKind → Option BinaryOp) (operand : Parser Expr) :
    Nat → Expr → Cursor → Option Expr × Cursor
  | 0, left, c => (some left, c)
  | rounds + 1, left, c =>
    match op? c.kind with
    | none => (some left, c)
    | some op =>
      match operand c.advance with
      | (some right, c) => chain op? operand rounds (join op left right) c
      | (none, c) => (none, c)

/-- Reads operands of one level with the operators between them. -/
def level (op? : TokenKind → Option BinaryOp) (operand : Parser Expr) : Parser Expr := do
  let left ← operand
  fun c => chain op? operand c.rest.length left c

/-- Reads an expression, given a parser of its operands. -/
def operators (operand : Parser Expr) : Parser Expr :=
  level eitherOp? <| level bothOp? <| level compareOp? <| level sumOp? <| level productOp? operand

/-! ### Calls -/

/-- Reads one or more arguments; a comma may follow the last one. -/
def arguments (expr : Parser Expr) : Nat → Cursor → Option (List Expr) × Cursor
  | 0, c => (some [], c)
  | rounds + 1, c =>
    match expr c with
    | (none, c) => (none, c)
    | (some e, c) =>
      if c.atSymbol .comma then
        let c := c.advance
        if c.atSymbol .closeParen then (some [e], c)
        else
          match arguments expr rounds c with
          | (some es, c) => (some (e :: es), c)
          | (none, c) => (none, c)
      else (some [e], c)

/-- Reads the arguments of a call up to the closing parenthesis. -/
def argumentList (expr : Parser Expr) : Parser (List Expr) := fun c =>
  if c.atSymbol .closeParen then (some [], c) else arguments expr c.rest.length c

/-- Reads one argument list after a callee. -/
def call (expr : Parser Expr) (callee : Expr) : Parser Expr := do
  let opened ← next
  let args ← argumentList expr
  let closed ← close .closeParen opened.span
  return .call (callee.span.merge closed.span) callee args

/-- Reads the argument lists that follow a callee. Every round reads a token. -/
def calls (expr : Parser Expr) : Nat → Expr → Cursor → Option Expr × Cursor
  | 0, callee, c => (some callee, c)
  | rounds + 1, callee, c =>
    if c.atSymbol .openParen then
      match call expr callee c with
      | (some e, c) => calls expr rounds e c
      | (none, c) => (none, c)
    else (some callee, c)

/-! ### Operands -/

/-- Reads a condition between parentheses. -/
def condition (expr : Parser Expr) : Parser Expr := do
  let opened ← expect .openParen
  let e ← expr
  let _ ← close .closeParen opened.span
  return e

/-- Reads a conditional and the conditionals that follow it as alternatives. Every
round reads a token. -/
def conditional (expr : Parser Expr) : Nat → Parser Conditional
  | 0 => fun c => (none, c)
  | rounds + 1 => do
    let start ← next
    let e ← condition expr
    let yes ← block expr
    if ← look (·.atKeyword .sivyo) then
      let _ ← next
      if ← look (·.atKeyword .kama) then
        let rest ← conditional expr rounds
        return .elseIf (start.span.merge (← look (·.previous))) e yes rest
      else
        let no ← block expr
        return .ifElse (start.span.merge (← look (·.previous))) e yes no
    else
      return .ifThen (start.span.merge (← look (·.previous))) e yes

/-- Reads a loop. -/
def loop (expr : Parser Expr) : Parser Expr := do
  let start ← next
  let e ← condition expr
  let body ← block expr
  return .loop (start.span.merge (← look (·.previous))) e body

/-- Reads one or more parameters; a comma may follow the last one. A name that was
given before is reported, and reading goes on. -/
def parameters : Nat → List Ident → Parser (List Ident)
  | 0, given => pure given
  | rounds + 1, given => do
    let param ← ident
    if given.any (·.name == param.name) then
      warn (.duplicateParameter param.name) param.span
    let given := given ++ [param]
    if ← eat .comma then
      if ← look (·.atSymbol .closeParen) then return given else parameters rounds given
    else return given

/-- Reads the parameters and the body of a function. -/
def functionRest (expr : Parser Expr) (name : Option Ident) (start : Span) : Parser Expr := do
  let opened ← expect .openParen
  let params ← fun c =>
    if c.atSymbol .closeParen then (some [], c) else parameters c.rest.length [] c
  let _ ← close .closeParen opened.span
  let body ← block expr
  return .function (start.merge body.span) name params body

/-- Reads an operand that begins with its own sign or word. -/
def primary (expr : Parser Expr) : Parser Expr := fun c =>
  let here := c.span
  match c.kind with
  | .number x => (some (.number here x), c.advance)
  | .text s => (some (.text here s), c.advance)
  | .name n => (some (.name here n), c.advance)
  | .keyword .kweli => (some (.boolean here true), c.advance)
  | .keyword .sikweli => (some (.boolean here false), c.advance)
  | .keyword .tupu => (some (.null here), c.advance)
  | .symbol .openParen =>
    (do
      let _ ← next
      let inner ← expr
      let closed ← close .closeParen here
      return .paren (here.merge closed.span) inner : Parser Expr) c
  | .keyword .kama =>
    (do return .conditional (← conditional expr c.rest.length) : Parser Expr) c
  | .keyword .wakati => loop expr c
  | .keyword .unda => functionRest expr none here c.advance
  | .keyword .kazi =>
    (do
      let _ ← next
      let name ← ident
      functionRest expr (some name) here : Parser Expr) c
  | _ => failHere .expectedExpression c

/-- Reads a sign and the operand below it, or an operand with its calls. -/
def prefixed (below nested : Parser Expr) : Parser Expr := fun c =>
  match unaryOp? c.kind with
  | some op =>
    (do
      let start ← next
      let operand ← below
      return .unary (start.span.merge operand.span) op operand : Parser Expr) c
  | none =>
    match primary nested c with
    | (some e, c) => calls nested c.rest.length e c
    | (none, c) => (none, c)

/-- Reports that no level is left. -/
def tooDeep : Parser Expr := failHere fun _ => .tooDeep

/-- Reads an operand, with a number of levels left below it. -/
def operand : Nat → Cursor → Option Expr × Cursor
  | 0, c => prefixed tooDeep tooDeep c
  | levels + 1, c => prefixed (operand levels) (operators (operand levels)) c

/-- Reads an expression, with a number of levels left for it. -/
def expression : Nat → Parser Expr
  | 0 => tooDeep
  | levels + 1 => operators (operand levels)

end Lugha.Parser
