import Lugha.Parser.Program
import Mathlib.Tactic.Common

/-!
# Trees without their places

Every tree carries the spans of the text it was read from.  `Expr.mapSpans` and its companions
change all spans of a tree by a function and leave the rest as it is.  Two trees are equal up to
their spans if they become equal when all spans are forgotten, which `Program.withoutSpans` does
for a program.
-/

namespace Lugha

/-! ### Changing all spans -/

/-- Changes the span of a name. -/
def Ident.mapSpans (f : Span → Span) (i : Ident) : Ident := ⟨i.name, f i.span⟩

mutual

/-- Changes all spans of an expression. -/
def Expr.mapSpans (f : Span → Span) : Expr → Expr
  | .number span x => .number (f span) x
  | .text span t => .text (f span) t
  | .boolean span b => .boolean (f span) b
  | .null span => .null (f span)
  | .name span n => .name (f span) n
  | .call span callee args => .call (f span) (callee.mapSpans f) (Expr.mapSpansList f args)
  | .binary span op left right => .binary (f span) op (left.mapSpans f) (right.mapSpans f)
  | .unary span op operand => .unary (f span) op (operand.mapSpans f)
  | .conditional branches => .conditional (branches.mapSpans f)
  | .loop span condition body => .loop (f span) (condition.mapSpans f) (body.mapSpans f)
  | .function span name params body =>
    .function (f span) (name.map (·.mapSpans f)) (params.map (·.mapSpans f)) (body.mapSpans f)
  | .paren span inner => .paren (f span) (inner.mapSpans f)

/-- Changes all spans of some expressions. -/
def Expr.mapSpansList (f : Span → Span) : List Expr → List Expr
  | [] => []
  | e :: es => e.mapSpans f :: Expr.mapSpansList f es

/-- Changes all spans of a conditional. -/
def Conditional.mapSpans (f : Span → Span) : Conditional → Conditional
  | .ifThen span condition yes => .ifThen (f span) (condition.mapSpans f) (yes.mapSpans f)
  | .ifElse span condition yes no =>
    .ifElse (f span) (condition.mapSpans f) (yes.mapSpans f) (no.mapSpans f)
  | .elseIf span condition yes next =>
    .elseIf (f span) (condition.mapSpans f) (yes.mapSpans f) (next.mapSpans f)

/-- Changes all spans of a block. -/
def Block.mapSpans (f : Span → Span) : Block → Block
  | .mk span stmts => .mk (f span) (Stmt.mapSpansList f stmts)

/-- Changes all spans of some statements. -/
def Stmt.mapSpansList (f : Span → Span) : List Stmt → List Stmt
  | [] => []
  | stmt :: stmts => stmt.mapSpans f :: Stmt.mapSpansList f stmts

/-- Changes all spans of a statement. -/
def Stmt.mapSpans (f : Span → Span) : Stmt → Stmt
  | .bind span name value => .bind (f span) (name.mapSpans f) (value.mapSpans f)
  | .assign span name value => .assign (f span) (name.mapSpans f) (value.mapSpans f)
  | .returnValue span value => .returnValue (f span) (value.mapSpans f)
  | .returnNothing span => .returnNothing (f span)
  | .breakLoop span => .breakLoop (f span)
  | .continueLoop span => .continueLoop (f span)
  | .expr value => .expr (value.mapSpans f)

end

/-- Changes all spans of a program. -/
def Program.mapSpans (f : Span → Span) (p : Program) : Program :=
  ⟨Stmt.mapSpansList f p.stmts, f p.span⟩

/-- Forgets a span. -/
def Span.forget (_ : Span) : Span := .synthetic

/-- A program whose spans are forgotten. -/
def Program.withoutSpans (p : Program) : Program := p.mapSpans .forget

/-! ### Parts of changed trees -/

section Parts

variable (f : Span → Span)

/-- Statements are changed one by one. -/
lemma Stmt.mapSpansList_eq (stmts : List Stmt) :
    Stmt.mapSpansList f stmts = stmts.map (·.mapSpans f) := by
  induction stmts with
  | nil => rw [Stmt.mapSpansList, List.map_nil]
  | cons stmt stmts ih => rw [Stmt.mapSpansList, ih, List.map_cons]

/-- The span of a conditional is changed with it. -/
@[simp] lemma Conditional.span_mapSpans (c : Conditional) : (c.mapSpans f).span = f c.span := by
  cases c <;> simp [Conditional.mapSpans, Conditional.span]

/-- The span of a block is changed with it. -/
@[simp] lemma Block.span_mapSpans (b : Block) : (b.mapSpans f).span = f b.span := by
  cases b
  simp [Block.mapSpans, Block.span]

/-- The span of an expression is changed with it. -/
@[simp] lemma Expr.span_mapSpans (e : Expr) : (e.mapSpans f).span = f e.span := by
  cases e <;> simp [Expr.mapSpans, Expr.span]

/-- A function can be named before or after its spans are changed. -/
lemma Expr.mapSpans_named (name : Ident) (e : Expr) :
    (e.named name).mapSpans f = (e.mapSpans f).named (name.mapSpans f) := by
  cases e with
  | function span n params body => cases n <;> simp [Expr.named, Expr.mapSpans]
  | _ => simp [Expr.named, Expr.mapSpans]

/-- Names keep their text. -/
@[simp] lemma Ident.name_mapSpans (i : Ident) : (i.mapSpans f).name = i.name := rfl

end Parts

/-! ### One change after another -/

section Composition

variable (f g : Span → Span)

/-- A second change of a name. -/
@[simp] lemma Ident.mapSpans_mapSpans (i : Ident) :
    (i.mapSpans g).mapSpans f = i.mapSpans (f ∘ g) := rfl

mutual

/-- A second change of an expression. -/
lemma Expr.mapSpans_mapSpans : ∀ e : Expr, (e.mapSpans g).mapSpans f = e.mapSpans (f ∘ g)
  | .number .. | .text .. | .boolean .. | .null .. | .name .. => by
    simp [Expr.mapSpans]
  | .call _ callee args => by
    simp [Expr.mapSpans, callee.mapSpans_mapSpans, Expr.mapSpansList_mapSpansList args]
  | .binary _ _ left right => by
    simp [Expr.mapSpans, left.mapSpans_mapSpans, right.mapSpans_mapSpans]
  | .unary _ _ operand => by
    simp [Expr.mapSpans, operand.mapSpans_mapSpans]
  | .conditional branches => by
    simp [Expr.mapSpans, branches.mapSpans_mapSpans]
  | .loop _ condition body => by
    simp [Expr.mapSpans, condition.mapSpans_mapSpans, body.mapSpans_mapSpans]
  | .function _ name params body => by
    simp [Expr.mapSpans, body.mapSpans_mapSpans, Function.comp_def]
  | .paren _ inner => by
    simp [Expr.mapSpans, inner.mapSpans_mapSpans]

/-- A second change of some expressions. -/
lemma Expr.mapSpansList_mapSpansList : ∀ es : List Expr,
    Expr.mapSpansList f (Expr.mapSpansList g es) = Expr.mapSpansList (f ∘ g) es
  | [] => by
    simp [Expr.mapSpansList]
  | e :: es => by
    simp [Expr.mapSpansList, e.mapSpans_mapSpans, Expr.mapSpansList_mapSpansList es]

/-- A second change of a conditional. -/
lemma Conditional.mapSpans_mapSpans : ∀ c : Conditional,
    (c.mapSpans g).mapSpans f = c.mapSpans (f ∘ g)
  | .ifThen _ condition yes => by
    simp [Conditional.mapSpans, condition.mapSpans_mapSpans, yes.mapSpans_mapSpans]
  | .ifElse _ condition yes no => by
    simp [Conditional.mapSpans, condition.mapSpans_mapSpans, yes.mapSpans_mapSpans,
      no.mapSpans_mapSpans]
  | .elseIf _ condition yes next => by
    simp [Conditional.mapSpans, condition.mapSpans_mapSpans, yes.mapSpans_mapSpans,
      next.mapSpans_mapSpans]

/-- A second change of a block. -/
lemma Block.mapSpans_mapSpans : ∀ b : Block, (b.mapSpans g).mapSpans f = b.mapSpans (f ∘ g)
  | .mk _ stmts => by
    simp [Block.mapSpans, Stmt.mapSpansList_mapSpansList stmts]

/-- A second change of some statements. -/
lemma Stmt.mapSpansList_mapSpansList : ∀ stmts : List Stmt,
    Stmt.mapSpansList f (Stmt.mapSpansList g stmts) = Stmt.mapSpansList (f ∘ g) stmts
  | [] => by
    simp [Stmt.mapSpansList]
  | stmt :: stmts => by
    simp [Stmt.mapSpansList, stmt.mapSpans_mapSpans, Stmt.mapSpansList_mapSpansList stmts]

/-- A second change of a statement. -/
lemma Stmt.mapSpans_mapSpans : ∀ stmt : Stmt, (stmt.mapSpans g).mapSpans f = stmt.mapSpans (f ∘ g)
  | .bind _ _ value | .assign _ _ value | .returnValue _ value | .expr value => by
    simp [Stmt.mapSpans, value.mapSpans_mapSpans]
  | .returnNothing _ | .breakLoop _ | .continueLoop _ => by
    simp [Stmt.mapSpans]

end

end Composition

/-! ### No change -/

/-- A name whose span stays. -/
@[simp] lemma Ident.mapSpans_id : Ident.mapSpans id = id := rfl

mutual

/-- An expression whose spans stay. -/
lemma Expr.mapSpans_id : ∀ e : Expr, e.mapSpans id = e
  | .number .. | .text .. | .boolean .. | .null .. | .name .. => by
    simp [Expr.mapSpans]
  | .call _ callee args => by
    simp [Expr.mapSpans, callee.mapSpans_id, Expr.mapSpansList_id args]
  | .binary _ _ left right => by
    simp [Expr.mapSpans, left.mapSpans_id, right.mapSpans_id]
  | .unary _ _ operand => by
    simp [Expr.mapSpans, operand.mapSpans_id]
  | .conditional branches => by
    simp [Expr.mapSpans, branches.mapSpans_id]
  | .loop _ condition body => by
    simp [Expr.mapSpans, condition.mapSpans_id, body.mapSpans_id]
  | .function _ name params body => by
    simp [Expr.mapSpans, body.mapSpans_id]
  | .paren _ inner => by
    simp [Expr.mapSpans, inner.mapSpans_id]

/-- Expressions whose spans stay. -/
lemma Expr.mapSpansList_id : ∀ es : List Expr, Expr.mapSpansList id es = es
  | [] => by
    simp [Expr.mapSpansList]
  | e :: es => by
    simp [Expr.mapSpansList, e.mapSpans_id, Expr.mapSpansList_id es]

/-- A conditional whose spans stay. -/
lemma Conditional.mapSpans_id : ∀ c : Conditional, c.mapSpans id = c
  | .ifThen _ condition yes => by
    simp [Conditional.mapSpans, condition.mapSpans_id, yes.mapSpans_id]
  | .ifElse _ condition yes no => by
    simp [Conditional.mapSpans, condition.mapSpans_id, yes.mapSpans_id, no.mapSpans_id]
  | .elseIf _ condition yes next => by
    simp [Conditional.mapSpans, condition.mapSpans_id, yes.mapSpans_id, next.mapSpans_id]

/-- A block whose spans stay. -/
lemma Block.mapSpans_id : ∀ b : Block, b.mapSpans id = b
  | .mk _ stmts => by
    simp [Block.mapSpans, Stmt.mapSpansList_id stmts]

/-- Statements whose spans stay. -/
lemma Stmt.mapSpansList_id : ∀ stmts : List Stmt, Stmt.mapSpansList id stmts = stmts
  | [] => by
    simp [Stmt.mapSpansList]
  | stmt :: stmts => by
    simp [Stmt.mapSpansList, stmt.mapSpans_id, Stmt.mapSpansList_id stmts]

/-- A statement whose spans stay. -/
lemma Stmt.mapSpans_id : ∀ stmt : Stmt, stmt.mapSpans id = stmt
  | .bind _ _ value | .assign _ _ value | .returnValue _ value | .expr value => by
    simp [Stmt.mapSpans, value.mapSpans_id]
  | .returnNothing _ | .breakLoop _ | .continueLoop _ => by
    simp [Stmt.mapSpans]

end

end Lugha
