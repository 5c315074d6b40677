import Lugha.Value

/-!
# Operators

What the operators do to values. Equality holds of any two values, arithmetic and
order of numbers; texts can be joined with `+`. All else is a mismatch of types.
-/

namespace Lugha

namespace BinaryOp

/-- The result that the left operand of `&&` or `||` settles by itself. -/
def settledBy? : BinaryOp → Value → Option Bool
  | both, v => if v.truthy then none else some false
  | either, v => if v.truthy then some true else none
  | _, _ => none

/-- The error for operands that an operator does not take. -/
def mismatch (op : BinaryOp) (a b : Value) : EvalError :=
  .mismatch (a.typeName ++ " " ++ op.text ++ " " ++ b.typeName)

/-- Arithmetic and order of numbers. The remainder and the quotient by zero are errors. -/
def numeric : BinaryOp → Float → Float → Except EvalError Value
  | add, x, y => .ok (.number (x + y))
  | sub, x, y => .ok (.number (x - y))
  | mul, x, y => .ok (.number (x * y))
  | div, x, y => if y == 0.0 then .error .divisionByZero else .ok (.number (x / y))
  | mod, x, y => if y == 0.0 then .error .divisionByZero else .ok (.number (remainder x y))
  | less, x, y => .ok (.boolean (decide (x < y)))
  | greater, x, y => .ok (.boolean (decide (y < x)))
  | lessEqual, x, y => .ok (.boolean (decide (x ≤ y)))
  | greaterEqual, x, y => .ok (.boolean (decide (y ≤ x)))
  | equal, x, y => .ok (.boolean (x == y))
  | notEqual, x, y => .ok (.boolean (x != y))
  | both, _, _ | either, _, _ => .ok (.boolean true)

/-- Applies an operator to both operands. -/
def apply (op : BinaryOp) (a b : Value) : Except EvalError Value :=
  match op, a, b with
  | both, _, b | either, _, b => .ok (.boolean b.truthy)
  | equal, a, b => .ok (.boolean (a.same b))
  | notEqual, a, b => .ok (.boolean (!a.same b))
  | op, .number x, .number y => op.numeric x y
  | add, .text s, .text t => .ok (.text (s ++ t))
  | op, a, b => .error (op.mismatch a b)

end BinaryOp

/-- Applies an operator to its operand. -/
def UnaryOp.apply (op : UnaryOp) (v : Value) : Except EvalError Value :=
  match op, v with
  | invert, v => .ok (.boolean (!v.truthy))
  | negate, .number x => .ok (.number (-x))
  | negate, v => .error (.mismatch ("-" ++ v.typeName))

end Lugha
