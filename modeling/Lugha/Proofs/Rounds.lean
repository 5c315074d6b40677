import Lugha.Parser.Program
import Mathlib.Tactic.Common

/-!
# One round of each parser

A loop of the parser is a recursion on the rounds that are left.  This file names what follows
the first part of a round, and writes each round as that part and then what follows.  Everything
that is shown of the parser by induction on rounds starts from these equations.
-/

namespace Lugha.Parser

variable {expr : Parser Expr}

/-- Looking at the cursor and going on. -/
lemma look_andThen {α β : Type} (g : Cursor → α) (f : α → Parser β) (c : Cursor) :
    (look g >>= f) c = f (g c) c := rfl

/-- Reading the next token and going on. -/
lemma next_andThen {β : Type} (f : Token → Parser β) (c : Cursor) :
    (next >>= f) c = f c.peek c.advance := rfl

/-- Reading a sign, if it stands here, and going on. -/
lemma eat_andThen {β : Type} (s : Symbol) (f : Bool → Parser β) (c : Cursor) :
    (eat s >>= f) c = if c.atSymbol s then f true c.advance else f false c := by
  change (eat s).andThen f c = _
  unfold Parser.andThen eat
  cases c.atSymbol s <;> rfl

/-- Reading a sign that has to stand here, and going on. -/
lemma expect_andThen {β : Type} (s : Symbol) (f : Token → Parser β) (c : Cursor) :
    (expect s >>= f) c =
      if c.atSymbol s then f c.peek c.advance
      else (none, c.report (.expectedSymbol s c.kind) c.span) := by
  change (expect s).andThen f c = _
  unfold Parser.andThen expect
  cases c.atSymbol s <;> rfl

/-- Reading a name, and going on. -/
lemma ident_andThen {β : Type} (f : Ident → Parser β) (c : Cursor) :
    (ident >>= f) c =
      match c.kind with
      | .name n => f ⟨n, c.span⟩ c.advance
      | k => (none, c.report (.expectedName k) c.span) := by
  change ident.andThen f c = _
  unfold Parser.andThen ident
  cases hkind : c.kind <;> simp [failHere, hkind]

/-! ### Statements -/

/-- Reads one statement, or skips it if it cannot be read, and then further ones. -/
def oneStatement (expr : Parser Expr) (rest : Parser (List Stmt)) : Parser (List Stmt) := fun c =>
  match statement expr c with
  | (some s, c) => (rest >>= fun ss => pure (s :: ss) : Parser (List Stmt)) c
  | (none, c) => rest c.synchronize

/-- The statements of a block as the result of a parser. -/
def blockStatements (expr : Parser Expr) (rounds : Nat) : Parser (List Stmt) := fun c =>
  (some (statements expr rounds c).1, (statements expr rounds c).2)

/-- A block ends, or one statement is read and then further ones. -/
lemma blockStatements_succ (rounds : Nat) (c : Cursor) :
    blockStatements expr (rounds + 1) c =
      if c.atSymbol .closeBrace || c.atEnd || c.faults.isFull then (some [], c)
      else oneStatement expr (blockStatements expr rounds) c := by
  rw [blockStatements, statements]
  unfold oneStatement
  split
  · rfl
  · generalize statement expr c = x
    rcases x with ⟨_ | s, c₁⟩ <;> rfl

/-- The statements of a program as the result of a parser. -/
def programStatements (expr : Parser Expr) (rounds : Nat) : Parser (List Stmt) := fun c =>
  (some (topLevel expr rounds c).1, (topLevel expr rounds c).2)

/-- A program ends, or a brace is passed over, or one statement is read and then further ones. -/
lemma programStatements_succ (rounds : Nat) (c : Cursor) :
    programStatements expr (rounds + 1) c =
      if c.atEnd || c.faults.isFull then (some [], c)
      else if c.atSymbol .closeBrace then
        programStatements expr rounds (c.report .strayBrace c.span).advance
      else oneStatement expr (programStatements expr rounds) c := by
  rw [programStatements, topLevel]
  unfold oneStatement
  split
  · rfl
  · split
    · rfl
    · generalize statement expr c = x
      rcases x with ⟨_ | s, c₁⟩ <;> rfl

/-! ### Operators and calls -/

/-- An operator and its right operand are read, and then those after it. -/
lemma chain_succ {op? : TokenKind → Option BinaryOp} {operand : Parser Expr} {rounds : Nat}
    {left : Expr} {c : Cursor} {op : BinaryOp} (h : op? c.kind = some op) :
    chain op? operand (rounds + 1) left c =
      operand.andThen (fun right => chain op? operand rounds (join op left right)) c.advance := by
  rw [chain, h]
  unfold Parser.andThen
  generalize operand c.advance = x
  rcases x with ⟨_ | right, c₁⟩ <;> rfl

/-- Reads what follows an argument: a comma and perhaps further arguments. -/
def furtherArguments (expr : Parser Expr) (rounds : Nat) (e : Expr) : Parser (List Expr) := fun c =>
  if c.atSymbol .comma then
    if c.advance.atSymbol .closeParen then (some [e], c.advance)
    else (arguments expr rounds >>= fun es => pure (e :: es) : Parser (List Expr)) c.advance
  else (some [e], c)

/-- One argument is read, and then those after it. -/
lemma arguments_succ (rounds : Nat) :
    arguments expr (rounds + 1) = expr.andThen (furtherArguments expr rounds) := by
  funext c
  rw [arguments, Parser.andThen]
  generalize expr c = x
  rcases x with ⟨_ | e, c₁⟩
  · rfl
  · dsimp only
    rw [furtherArguments]
    split
    · split
      · rfl
      · change _ = Parser.andThen _ _ _
        unfold Parser.andThen
        generalize arguments expr rounds c₁.advance = y
        rcases y with ⟨_ | es, c₂⟩ <;> rfl
    · rfl

/-- An argument list is read, and then those after it. -/
lemma calls_succ {rounds : Nat} {callee : Expr} {c : Cursor} (h : c.atSymbol .openParen) :
    calls expr (rounds + 1) callee c = (call expr callee).andThen (calls expr rounds) c := by
  rw [calls, if_pos h]
  unfold Parser.andThen
  generalize call expr callee c = x
  rcases x with ⟨_ | e, c₁⟩ <;> rfl

/-! ### Conditionals -/

/-- Reads what follows `sivyo`: a further conditional or a block. -/
def otherwise (expr : Parser Expr) (rounds : Nat) (start : Token) (e : Expr) (yes : Block) :
    Parser Conditional := do
  if ← look (·.atKeyword .kama) then
    let rest ← conditional expr rounds
    return .elseIf (start.span.merge (← look (·.previous))) e yes rest
  else
    let no ← block expr
    return .ifElse (start.span.merge (← look (·.previous))) e yes no

/-- Reads what follows the first block of a conditional. -/
def alternative (expr : Parser Expr) (rounds : Nat) (start : Token) (e : Expr) (yes : Block) :
    Parser Conditional := do
  if ← look (·.atKeyword .sivyo) then
    let _ ← next
    otherwise expr rounds start e yes
  else
    return .ifThen (start.span.merge (← look (·.previous))) e yes

/-- A conditional is read up to its first block, and then what follows. -/
lemma conditional_succ (rounds : Nat) :
    conditional expr (rounds + 1) = (do
      let start ← next
      let e ← condition expr
      let yes ← block expr
      alternative expr rounds start e yes) := rfl

/-! ### Functions -/

/-- Reads what follows a parameter: a comma and perhaps further parameters. -/
def furtherParameters (rounds : Nat) (given : List Ident) : Parser (List Ident) := do
  if ← eat .comma then
    if ← look (·.atSymbol .closeParen) then return given else parameters rounds given
  else return given

/-- A parameter is read, one that was given before is reported, and then come further ones. -/
lemma parameters_succ (rounds : Nat) (given : List Ident) :
    parameters (rounds + 1) given = ident >>= fun param =>
      if given.any (·.name == param.name) then
        warn (.duplicateParameter param.name) param.span >>= fun _ =>
          furtherParameters rounds (given ++ [param])
      else furtherParameters rounds (given ++ [param]) := rfl

/-- Whether a parameter was given before is seen from the names. -/
lemma any_name_iff (given : List Ident) (n : String) :
    given.any (·.name == n) = true ↔ n ∈ given.map (·.name) := by
  simp

/-- Reads the parameters of a function up to the closing parenthesis. -/
def parameterList : Parser (List Ident) := fun c =>
  if c.atSymbol .closeParen then (some [], c) else parameters c.rest.length [] c

/-! ### Operands -/

/-- Reads an expression between parentheses. -/
def parenthesized (expr : Parser Expr) (here : Span) : Parser Expr := do
  let _ ← next
  let inner ← expr
  let closed ← close .closeParen here
  return .paren (here.merge closed.span) inner

/-- Reads a function without a name. -/
def nameless (expr : Parser Expr) (here : Span) : Parser Expr := do
  let _ ← next
  functionRest expr none here

/-- Reads a function with a name. -/
def titled (expr : Parser Expr) (here : Span) : Parser Expr := do
  let _ ← next
  let name ← ident
  functionRest expr (some name) here

/-- Reads a conditional as an operand. -/
def choice (expr : Parser Expr) : Parser Expr := do
  return .conditional (← fun c => conditional expr c.rest.length c)

/-- Without a sign before it, an operand is read with its calls. -/
lemma prefixed_of_none {below nested : Parser Expr} {c : Cursor} (h : unaryOp? c.kind = none) :
    prefixed below nested c =
      (primary nested >>= fun e c => calls nested c.rest.length e c) c := by
  rw [prefixed, h]
  change _ = Parser.andThen _ _ _
  unfold Parser.andThen
  generalize primary nested c = x
  rcases x with ⟨_ | e, c₁⟩ <;> rfl

end Lugha.Parser
