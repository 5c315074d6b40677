import Lugha.Json
import Lugha.Program

/-!
# Outlines of programs

A program tree written as nested lists, with the span of every node. An outline
shows all that the tree holds.
-/

namespace Lugha

/-- The bits of a double as sixteen hexadecimal digits; one word for everything undefined. -/
def bitsText (x : Float) : String :=
  if x.isNaN then "nan"
  else
    let digits := Nat.toDigits 16 x.toBits.toNat
    String.ofList (List.replicate (16 - digits.length) '0' ++ digits)

/-- A span with both its ends. -/
def Span.outline (s : Span) : String := s.first.text ++ "-" ++ s.last.text

/-- A name with its span. -/
def Ident.outline (i : Ident) : String := i.name ++ "@" ++ i.span.outline

/-- A node: its head, its span and its parts. -/
def outlineNode (head : String) (span : Span) (parts : List String) : String :=
  "(" ++ " ".intercalate (head :: span.outline :: parts) ++ ")"

mutual

/-- The outline of an expression. -/
def Expr.outline : Expr → String
  | .number span x => outlineNode "num" span [bitsText x]
  | .text span s => outlineNode "str" span [Json.quote s]
  | .boolean span b => outlineNode "bool" span [if b then "true" else "false"]
  | .null span => outlineNode "null" span []
  | .name span n => outlineNode "id" span [n]
  | .call span callee args => outlineNode "call" span (callee.outline :: Expr.outlines args)
  | .binary span op left right => outlineNode op.text span [left.outline, right.outline]
  | .unary span op operand => outlineNode ("u" ++ op.text) span [operand.outline]
  | .conditional branches => outlineNode "ifx" branches.span [branches.outline]
  | .loop span condition body =>
    outlineNode "while" span [span.outline, condition.outline, body.outline]
  | .function span name params body =>
    outlineNode "fn" span
      [(name.map Ident.outline).getD "-", "[" ++ " ".intercalate (params.map Ident.outline) ++ "]",
        body.outline]
  | .paren span inner => outlineNode "paren" span [inner.outline]

/-- The outlines of expressions. -/
def Expr.outlines : List Expr → List String
  | [] => []
  | e :: es => e.outline :: Expr.outlines es

/-- The outline of a conditional. -/
def Conditional.outline : Conditional → String
  | .ifThen span condition yes => outlineNode "if" span [condition.outline, yes.outline, "-"]
  | .ifElse span condition yes no =>
    outlineNode "if" span [condition.outline, yes.outline, no.outline]
  | .elseIf span condition yes next =>
    outlineNode "if" span [condition.outline, yes.outline, next.outline]

/-- The outline of a block. -/
def Block.outline : Block → String
  | .mk span stmts => outlineNode "block" span (Stmt.outlines stmts)

/-- The outlines of statements. -/
def Stmt.outlines : List Stmt → List String
  | [] => []
  | s :: ss => s.outline :: Stmt.outlines ss

/-- The outline of a statement. -/
def Stmt.outline : Stmt → String
  | .bind span name value => outlineNode "let" span [name.outline, value.outline]
  | .assign span name value => outlineNode "assign" span [name.outline, value.outline]
  | .returnValue span value => outlineNode "return" span [value.outline]
  | .returnNothing span => outlineNode "return" span ["-"]
  | .breakLoop span => outlineNode "break" span []
  | .continueLoop span => outlineNode "continue" span []
  | .expr value => outlineNode "expr" value.span [value.outline]

end

end Lugha
