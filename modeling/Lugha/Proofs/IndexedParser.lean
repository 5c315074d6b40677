import Lugha.Proofs.Rounds

/-!
# Reading tokens by their places

`Parser.program` moves a cursor over the tokens that are left and is given the number of levels that
it may still go down, and its loops are given rounds.  The parser of this module knows of none of
these.  It keeps all tokens and the place of the next one, looks tokens up by their places, counts
how deep the expression is that it reads, and repeats its loops until they end.  A place outside the
list breaks reading off, and so does fuel that is spent: each loop and each operand is given some.

While it reads it notes what it does.  It notes every token that it moves past and the place of it,
where each round of a loop over statements begins and ends, and at which place and depth each parser
is entered and left, whether it succeeds or fails.
-/

namespace Lugha

/-- A place in a list of tokens and a depth of expressions. -/
structure Spot where
  place : Nat
  depth : Nat

/-- What is noted while tokens are read. -/
inductive Mark where
  /-- the token at a place was read -/
  | passed (token : Token) (place : Nat)
  /-- a round of a loop over statements began at a place and ended at another -/
  | round (before after : Nat)
  /-- a parser was entered and left -/
  | left (entry exit : Spot)

/-- How far reading has come. -/
structure Reading where
  /-- the place of the next token -/
  place : Nat := 0
  /-- how deep the expression is that is being read -/
  depth : Nat := 0
  faults : ErrorList Fault := .empty
  marks : List Mark := []

namespace Reading

/-- The place and the depth. -/
def spot (s : Reading) : Spot := ⟨s.place, s.depth⟩

/-- Notes something. -/
def noted (s : Reading) (m : Mark) : Reading := { s with marks := s.marks ++ [m] }

/-- Records an error. -/
def report (s : Reading) (e : SyntaxError) (span : Span) : Reading :=
  { s with faults := s.faults.push ⟨e, span⟩ }

end Reading

/-- Why reading breaks off. -/
inductive Breakdown where
  /-- a place is outside the list -/
  | outside
  /-- the fuel is spent -/
  | spent

/-- A parser that looks tokens up by their places. It gives a result, or none if it failed, unless
it breaks off. -/
def Indexed (α : Type) : Type := List Token → Reading → Except Breakdown (Option α × Reading)

namespace Indexed

variable {α β : Type}

/-- Runs one parser and then a second one that depends on its result. -/
def andThen (p : Indexed α) (f : α → Indexed β) : Indexed β := fun ts s =>
  match p ts s with
  | .ok (some a, s) => f a ts s
  | .ok (none, s) => .ok (none, s)
  | .error e => .error e

instance : Monad Indexed where
  pure a := fun _ s => .ok (some a, s)
  bind := andThen

/-- How a parser goes on after one that succeeds. -/
lemma bind_of_some {p : Indexed α} {f : α → Indexed β} {ts : List Token} {s s' : Reading} {a : α}
    (h : p ts s = .ok (some a, s')) : (p >>= f) ts s = f a ts s' := by
  change andThen p f ts s = _
  rw [andThen, h]

/-- A parser does not go on after one that fails. -/
lemma bind_of_none {p : Indexed α} {f : α → Indexed β} {ts : List Token} {s s' : Reading}
    (h : p ts s = .ok (none, s')) : (p >>= f) ts s = .ok (none, s') := by
  change andThen p f ts s = _
  rw [andThen, h]

/-! ### Looking at tokens -/

/-- The fuel is spent. -/
def spent : Indexed α := fun _ _ => .error .spent

/-- What is found at a place, if it is inside the list. -/
def found (x : Option α) : Indexed α := fun _ s =>
  match x with
  | some a => .ok (some a, s)
  | none => .error .outside

/-- The next token. At the end this is the last one. -/
def peek : Indexed Token := fun ts s => found ts[min s.place (ts.length - 1)]? ts s

/-- What the next token is. -/
def kind : Indexed TokenKind := do return (← peek).kind

/-- Where the next token stands. -/
def span : Indexed Span := do return (← peek).span

/-- Whether the tokens are at an end. -/
def atEnd : Indexed Bool := do return (← kind).isEnd

/-- Whether the next token is a given sign. -/
def atSymbol (sign : Symbol) : Indexed Bool := do
  match ← kind with
  | .symbol t => return t == sign
  | _ => return false

/-- Whether the next token is a given reserved word. -/
def atKeyword (word : Keyword) : Indexed Bool := do
  match ← kind with
  | .keyword l => return l == word
  | _ => return false

/-- What the token after the next one is, or the mark of the end if there is none. -/
def kindAfter : Indexed TokenKind := fun ts s =>
  .ok (some ((ts[s.place + 1]?.map (·.kind)).getD .endOfFile), s)

/-- Whether `=` stands after the next token. -/
def assignAhead : Indexed Bool := do
  match ← kindAfter with
  | .symbol .assign => return true
  | _ => return false

/-- Where the token before a place stands, if it is inside the list. -/
def spanBefore (ts : List Token) (place : Nat) : Option Span :=
  if 0 < place then ts[place - 1]?.map (·.span) else some (.point .origin)

/-- Where the token stands that was read last. -/
def previous : Indexed Span := fun ts s => found (spanBefore ts s.place) ts s

/-- The place of the next token. -/
def place : Indexed Nat := fun _ s => .ok (some s.place, s)

/-- Whether so many errors were reported that reading should stop. -/
def isFull : Indexed Bool := fun _ s => .ok (some s.faults.isFull, s)

/-! ### Moving on and failing -/

/-- Moves past a token, unless all are read. -/
def pass (t : Token) : Indexed Token := fun ts s =>
  .ok (some t,
    { s with place := if s.place < ts.length then s.place + 1 else s.place }.noted
      (.passed t s.place))

/-- Reads the next token. -/
def advance : Indexed Token := do pass (← peek)

/-- Records an error and goes on. -/
def warn (e : SyntaxError) (span : Span) : Indexed Unit := fun _ s =>
  .ok (some (), s.report e span)

/-- Records an error and fails. -/
def failAt (e : SyntaxError) (span : Span) : Indexed α := fun _ s =>
  .ok (none, s.report e span)

/-- Records an error that quotes the next token, and fails. -/
def failHere (e : TokenKind → SyntaxError) : Indexed α := do
  let t ← peek
  failAt (e t.kind) t.span

/-- Reads a sign if it is the next token, and tells whether it was. -/
def eat (sign : Symbol) : Indexed Bool := do
  if ← atSymbol sign then
    let _ ← advance
    return true
  else return false

/-- Reads a sign that has to stand here. -/
def expect (sign : Symbol) : Indexed Token := do
  if ← atSymbol sign then advance else failHere (.expectedSymbol sign)

/-- Reads the sign that closes a bracket. -/
def close (sign : Symbol) (opened : Span) : Indexed Token := do
  if ← atEnd then failAt (.unclosedBracket sign) opened else expect sign

/-- Reads a name. -/
def ident : Indexed Ident := do
  match ← kind with
  | .name n => return ⟨n, (← advance).span⟩
  | _ => failHere .expectedName

/-! ### Parsers within parsers -/

/-- Tells whether a parser failed, and does not fail. -/
def attempt (p : Indexed α) : Indexed (Option α) := fun ts s =>
  match p ts s with
  | .ok (r, s) => .ok (some r, s)
  | .error e => .error e

/-- Goes on from what a parser leaves, whether it has failed or not. -/
def after (p : Indexed α) (f : Reading → Reading) : Indexed α := fun ts s =>
  match p ts s with
  | .ok (r, s) => .ok (r, f s)
  | .error e => .error e

/-- Notes where a parser is entered and left. -/
def tracked (p : Indexed α) : Indexed α := fun ts s =>
  after p (fun s' => s'.noted (.left s.spot s'.spot)) ts s

/-- Notes where a round of a loop over statements begins and ends. -/
def round (p : Indexed α) : Indexed α := fun ts s =>
  after p (fun s' => s'.noted (.round s.place s'.place)) ts s

/-- Reads something one level deeper, unless that is too deep. -/
def nested (p : Indexed Expr) : Indexed Expr := fun ts s =>
  after (fun ts s => if maxNesting < s.depth then failHere (fun _ => .tooDeep) ts s else p ts s)
    (fun s => { s with depth := s.depth - 1 }) ts { s with depth := s.depth + 1 }

/-! ### Statements and blocks -/

/-- Skips tokens up to where reading can resume. -/
def skip (start : Nat) : Nat → Indexed Unit
  | 0 => spent
  | fuel + 1 => do
    match ← kind with
    | .endOfFile => return ()
    | .symbol .semicolon =>
      let _ ← advance
      return ()
    | .symbol .closeBrace => return ()
    | k =>
      if start < (← place) && Cursor.resumes k then return ()
      else
        let _ ← advance
        skip start fuel

/-- Skips the rest of a statement that could not be read. -/
def synchronize (fuel : Nat) : Indexed Unit := do skip (← place) fuel

/-- Reads what follows `fanya`. -/
def binding (expr : Indexed Expr) : Indexed Stmt := tracked do
  let start ← advance
  let name ← ident
  let _ ← expect .assign
  let value ← expr
  return .bind (start.span.merge value.span) name (value.named name)

/-- Reads `name = value`. -/
def assignment (expr : Indexed Expr) : Indexed Stmt := tracked do
  let name ← ident
  let _ ← expect .assign
  let value ← expr
  return .assign (name.span.merge value.span) name value

/-- Whether a `rudisha` that was just read has no value. -/
def endsReturn : Indexed Bool := do
  return (← atSymbol .semicolon) || (← atSymbol .closeBrace) || (← atEnd)

/-- Reads `rudisha` and its value, if it has one. -/
def returning (expr : Indexed Expr) : Indexed Stmt := tracked do
  let start ← advance
  if ← endsReturn then return .returnNothing start.span
  else
    let value ← expr
    return .returnValue (start.span.merge value.span) value

/-- Reads an expression that stands as a statement. -/
def bare (expr : Indexed Expr) : Indexed Stmt := tracked do
  let value ← expr
  if ← atSymbol .assign then failAt .invalidTarget value.span else return .expr value

/-- Reads a statement up to its semicolon. -/
def unterminated (expr : Indexed Expr) : Indexed Stmt := do
  match ← kind with
  | .keyword .fanya => binding expr
  | .keyword .rudisha => returning expr
  | .keyword .vunja => return .breakLoop (← advance).span
  | .keyword .endelea => return .continueLoop (← advance).span
  | .name _ => if ← assignAhead then assignment expr else bare expr
  | _ => bare expr

/-- Reads a statement and the semicolon after it, if there is one. -/
def statement (expr : Indexed Expr) : Indexed Stmt := tracked do
  let stmt ← unterminated expr
  let _ ← eat .semicolon
  return stmt

/-- Reads a statement, or skips it if it cannot be read. -/
def statementOrSkip (expr : Indexed Expr) (fuel : Nat) : Indexed (Option Stmt) := do
  match ← attempt (statement expr) with
  | some stmt => return some stmt
  | none =>
    let _ ← synchronize fuel
    return none

/-- Reads the statements of a block, up to its closing brace, the end of the text, or a full error
list. -/
def statements (expr : Indexed Expr) : Nat → Indexed (List Stmt)
  | 0 => spent
  | fuel + 1 => do
    if (← atSymbol .closeBrace) || (← atEnd) || (← isFull) then return []
    else
      let stmt? ← round (statementOrSkip expr fuel)
      let stmts ← statements expr fuel
      return stmt?.toList ++ stmts

/-- Reads a block. -/
def block (expr : Indexed Expr) (fuel : Nat) : Indexed Block := tracked do
  let start ← span
  let _ ← expect .openBrace
  let stmts ← statements expr fuel
  let _ ← close .closeBrace start
  return .mk (start.merge (← previous)) stmts

/-! ### Operators and calls -/

/-- Reads the operators of one level and their right operands. -/
def chain (op? : TokenKind → Option BinaryOp) (operand : Indexed Expr) : Nat → Expr → Indexed Expr
  | 0, _ => spent
  | fuel + 1, left => do
    match op? (← kind) with
    | none => return left
    | some op =>
      let _ ← advance
      let right ← operand
      chain op? operand fuel (Parser.join op left right)

/-- Reads operands of one level with the operators between them. -/
def level (op? : TokenKind → Option BinaryOp) (fuel : Nat) (operand : Indexed Expr) :
    Indexed Expr := tracked do
  let left ← operand
  chain op? operand fuel left

/-- Reads an expression, given a parser of its operands. -/
def operators (fuel : Nat) (operand : Indexed Expr) : Indexed Expr :=
  level Parser.eitherOp? fuel <| level Parser.bothOp? fuel <| level Parser.compareOp? fuel <|
    level Parser.sumOp? fuel <| level Parser.productOp? fuel operand

/-- Reads one or more arguments; a comma may follow the last one. -/
def arguments (expr : Indexed Expr) : Nat → Indexed (List Expr)
  | 0 => spent
  | fuel + 1 => do
    let e ← expr
    if ← eat .comma then
      if ← atSymbol .closeParen then return [e]
      else
        let es ← arguments expr fuel
        return e :: es
    else return [e]

/-- Reads the arguments of a call up to the closing parenthesis. -/
def argumentList (expr : Indexed Expr) (fuel : Nat) : Indexed (List Expr) := tracked do
  if ← atSymbol .closeParen then return [] else arguments expr fuel

/-- Reads one argument list after a callee. -/
def call (expr : Indexed Expr) (fuel : Nat) (callee : Expr) : Indexed Expr := do
  let opened ← advance
  let args ← argumentList expr fuel
  let _ ← close .closeParen opened.span
  return .call (callee.span.merge (← previous)) callee args

/-- Reads the argument lists that follow a callee. -/
def calls (expr : Indexed Expr) : Nat → Expr → Indexed Expr
  | 0, _ => spent
  | fuel + 1, callee => do
    if ← atSymbol .openParen then
      let e ← call expr fuel callee
      calls expr fuel e
    else return callee

/-! ### Operands -/

/-- Reads a condition between parentheses. -/
def condition (expr : Indexed Expr) : Indexed Expr := tracked do
  let opened ← expect .openParen
  let e ← expr
  let _ ← close .closeParen opened.span
  return e

/-- Reads a conditional and the conditionals that follow it as alternatives. -/
def conditional (expr : Indexed Expr) : Nat → Indexed Conditional
  | 0 => spent
  | fuel + 1 => tracked do
    let start ← advance
    let e ← condition expr
    let yes ← block expr fuel
    if ← atKeyword .sivyo then
      let _ ← advance
      if ← atKeyword .kama then
        let rest ← conditional expr fuel
        return .elseIf (start.span.merge (← previous)) e yes rest
      else
        let no ← block expr fuel
        return .ifElse (start.span.merge (← previous)) e yes no
    else return .ifThen (start.span.merge (← previous)) e yes

/-- Reads a loop. -/
def loop (expr : Indexed Expr) (fuel : Nat) : Indexed Expr := tracked do
  let start ← advance
  let e ← condition expr
  let body ← block expr fuel
  return .loop (start.span.merge (← previous)) e body

/-- Reads one or more parameters; a comma may follow the last one. -/
def parameters : Nat → List Ident → Indexed (List Ident)
  | 0, _ => spent
  | fuel + 1, given => do
    let param ← ident
    if given.any (·.name == param.name) then
      warn (.duplicateParameter param.name) param.span
    if ← eat .comma then
      if ← atSymbol .closeParen then return given ++ [param]
      else parameters fuel (given ++ [param])
    else return given ++ [param]

/-- Reads the parameters and the body of a function. -/
def functionRest (expr : Indexed Expr) (fuel : Nat) (name : Option Ident) (start : Span) :
    Indexed Expr := tracked do
  let opened ← expect .openParen
  let params ← (do if ← atSymbol .closeParen then return [] else parameters fuel [])
  let _ ← close .closeParen opened.span
  let body ← block expr fuel
  return .function (start.merge body.span) name params body

/-- Reads an operand that begins with its own sign or word. -/
def primary (expr : Indexed Expr) (fuel : Nat) : Indexed Expr := tracked do
  let start ← span
  match ← kind with
  | .number x =>
    let _ ← advance
    return .number start x
  | .text t =>
    let _ ← advance
    return .text start t
  | .name n =>
    let _ ← advance
    return .name start n
  | .keyword .kweli =>
    let _ ← advance
    return .boolean start true
  | .keyword .sikweli =>
    let _ ← advance
    return .boolean start false
  | .keyword .tupu =>
    let _ ← advance
    return .null start
  | .symbol .openParen =>
    let _ ← advance
    let inner ← expr
    let _ ← close .closeParen start
    return .paren (start.merge (← previous)) inner
  | .keyword .kama => return .conditional (← conditional expr fuel)
  | .keyword .wakati => loop expr fuel
  | .keyword .unda =>
    let _ ← advance
    functionRest expr fuel none start
  | .keyword .kazi =>
    let _ ← advance
    let name ← ident
    functionRest expr fuel (some name) start
  | _ => failHere .expectedExpression

/-- Reads an operand with its calls. -/
def called (expr : Indexed Expr) (fuel : Nat) : Indexed Expr := tracked do
  let e ← primary expr fuel
  calls expr fuel e

/-- Reads a sign and the operand below it, or an operand with its calls. -/
def prefixed (below expr : Indexed Expr) (fuel : Nat) : Indexed Expr := tracked do
  let start ← span
  match Parser.unaryOp? (← kind) with
  | some op =>
    let _ ← advance
    let operand ← below
    return .unary (start.merge operand.span) op operand
  | none => called expr fuel

/-- Reads an expression, given a parser of its operands. -/
def expressionOf (fuel : Nat) (operand : Indexed Expr) : Indexed Expr :=
  tracked (nested (operators fuel operand))

/-- Reads an operand. -/
def operand : Nat → Indexed Expr
  | 0 => spent
  | fuel + 1 => prefixed (nested (operand fuel)) (expressionOf fuel (operand fuel)) fuel

/-- Reads an expression. -/
def expression (fuel : Nat) : Indexed Expr := expressionOf fuel (operand fuel)

/-! ### Programs -/

/-- Passes over a closing brace without an opening one. -/
def strayBrace : Indexed (Option Stmt) := do
  warn .strayBrace (← span)
  let _ ← advance
  return none

/-- Reads the statements of a program, up to the end of the text or a full error list. -/
def topLevel (expr : Indexed Expr) : Nat → Indexed (List Stmt)
  | 0 => spent
  | fuel + 1 => do
    if (← atEnd) || (← isFull) then return []
    else
      let stmt? ← round do
        if ← atSymbol .closeBrace then strayBrace else statementOrSkip expr fuel
      let stmts ← topLevel expr fuel
      return stmt?.toList ++ stmts

/-- Reads a program. -/
def program (fuel : Nat) : Indexed Program := tracked do
  let start ← span
  let stmts ← topLevel (expression fuel) fuel
  if stmts.isEmpty then return ⟨stmts, start⟩ else return ⟨stmts, start.merge (← previous)⟩

end Indexed

end Lugha
