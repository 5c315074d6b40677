import Lugha.Machine

/-!
# Builtins

`aina` gives the name of a value's type, `andika` prints its arguments on a line,
`hakiki` asserts a condition. While a log is attached an assertion is recorded
there and never fails; without one a failed assertion is an error.
-/

namespace Lugha

/-- The message of an assertion that was given none. -/
def defaultMessage : String := "Test"

/-- The message of an assertion: its second argument, if that is a text. -/
def assertionMessage : List Value → String
  | _ :: .text s :: _ => s
  | _ => defaultMessage

namespace Builtin

/-- Asserts a condition. -/
def assert (args : List Value) : Run Value := fun m =>
  match args with
  | [] => .error (.custom "assert requires a condition") m
  | condition :: _ =>
    let event : Event := ⟨condition.truthy, assertionMessage args⟩
    match m.reporter with
    | some log => .ok (.boolean true) (m.record log event)
    | none => if event.passed then .ok (.boolean true) m else .error (.custom event.message) m

/-- Calls a builtin. -/
def apply (b : Builtin) (args : List Value) : Run Value := fun m =>
  match b with
  | hakiki => assert args m
  | andika => .ok .null (m.print (" ".intercalate (args.map Value.shown)))
  | aina =>
    match args with
    | [v] => .ok (.text v.typeName) m
    | _ => .error (.arity "aina" 1 args.length) m

end Builtin

end Lugha
