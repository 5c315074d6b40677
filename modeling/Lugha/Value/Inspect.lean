import Lugha.Machine
import Lugha.Text.Quoted

/-!
# Values for inspection

Values, errors and scopes written out by their kind and their parts. A function shows
its name and its parameters, a scope the names that it binds itself.
-/

namespace Lugha

/-- Items between brackets. -/
def inspectList (items : List String) : String := "[" ++ ", ".intercalate items ++ "]"

/-- Something that may be absent. -/
def inspectOption {α : Type} (f : α → String) : Option α → String
  | some a => "Some(" ++ f a ++ ")"
  | none => "None"

/-- A record with its fields. -/
def inspectRecord (name : String) (fields : List (String × String)) (rest : List String) : String :=
  let shown := fields.map fun f => f.1 ++ ": " ++ f.2
  name ++ " \x7b " ++ ", ".intercalate (shown ++ rest) ++ " \x7d"

/-- An error by its kind. -/
def EvalError.inspect : EvalError → String
  | undefined name => "UndefinedIdentifier(" ++ Text.inspect name ++ ")"
  | arity name expected got =>
    inspectRecord "ArityMismatch"
      [("name", Text.inspect name), ("expected", toString expected), ("got", toString got)] []
  | mismatch operation => "TypeMismatch(" ++ Text.inspect operation ++ ")"
  | notCallable type => "NotCallable(" ++ Text.inspect type ++ ")"
  | divisionByZero => "DivisionByZero"
  | infiniteLoop => "InfiniteLoop"
  | recursionLimit => "RecursionLimit"
  | strayJump jump => "StrayControl(" ++ Text.inspect jump.text ++ ")"
  | custom message => "Custom(" ++ Text.inspect message ++ ")"

/-- A function by its name and its parameters. -/
def Function.inspect (f : Function) : String :=
  inspectRecord "Function"
    [("name", inspectOption Text.inspect f.name),
      ("params", inspectList (f.params.map Text.inspect))]
    [".."]

/-- A value by its kind. -/
def Value.inspect : Value → String
  | number x => "Number(" ++ (Number.ofFloat x).inspected ++ ")"
  | text s => "String(" ++ Text.inspect s ++ ")"
  | boolean b => "Boolean(" ++ (if b then "true" else "false") ++ ")"
  | null => "Null"
  | function f => "Function(" ++ f.inspect ++ ")"
  | builtin b => "Module(ModuleFunction(" ++ b.name ++ "))"
  | error e => "Error(" ++ e.inspect ++ ")"
  | jump .vunja => "Break"
  | jump .endelea => "Continue"
  | returned v => "Return(" ++ v.inspect ++ ")"

/-- A scope by the names that it binds itself. -/
def Machine.inspectScope (m : Machine) (s : Scope) : String :=
  inspectRecord "Environment"
    [("names", inspectList ((Bindings.names (m.frame s.frame)).map Text.inspect)),
      ("has_outer", if s.outer.isEmpty then "false" else "true")]
    []

/-- The builtins, by name. -/
def Builtin.inspectAll : String :=
  "\x7b" ++ ", ".intercalate (Builtin.all.map fun b => Text.inspect b.name) ++ "\x7d"

end Lugha
