import Lugha.Number.Decimal
import Lugha.Program

/-!
# Values

What expressions evaluate to. Beside the data of a program a value can be a
signal, which travels outward until a loop or a call takes it, or an error that
was turned into a value.
-/

namespace Lugha

/-- The two ways to leave a round of a loop. -/
inductive Jump where
  | vunja
  | endelea
deriving DecidableEq, Repr, Inhabited

/-- The word that causes a jump. -/
def Jump.text : Jump → String
  | vunja => "vunja"
  | endelea => "endelea"

/-- Why an evaluation failed. -/
inductive EvalError where
  | undefined (name : String)
  | arity (name : String) (expected got : Nat)
  | mismatch (operation : String)
  | notCallable (type : String)
  | divisionByZero
  | infiniteLoop
  | recursionLimit
  | strayJump (jump : Jump)
  | custom (message : String)
deriving DecidableEq, Repr, Inhabited

/-- The wording of an error. -/
def EvalError.message : EvalError → String
  | undefined name => "identifier not found: " ++ name
  | arity name expected got =>
    "wrong number of arguments for " ++ name ++ ": expected " ++ toString expected ++
      ", got " ++ toString got
  | mismatch operation => "type mismatch: " ++ operation
  | notCallable type => "not a function: " ++ type
  | divisionByZero => "division by zero"
  | infiniteLoop => "infinite loop detected"
  | recursionLimit => "maximum recursion depth exceeded"
  | strayJump jump => jump.text ++ " outside a loop"
  | custom message => message

/-- The functions that every program can call. -/
inductive Builtin where
  /-- tells the type of a value -/
  | aina
  /-- prints a line -/
  | andika
  /-- asserts a condition -/
  | hakiki
deriving DecidableEq, Repr, Inhabited

namespace Builtin

/-- Every builtin, ordered by name. -/
def all : List Builtin := [aina, andika, hakiki]

/-- The name of a builtin. -/
def name : Builtin → String
  | aina => "aina"
  | andika => "andika"
  | hakiki => "hakiki"

/-- The builtin of a given name. -/
def ofName? (name : String) : Option Builtin :=
  all.find? fun b => b.name == name

end Builtin

/-- A scope is the frame that holds its own names and the frames around it, from the
inside out. -/
structure Scope where
  frame : Nat
  outer : List Nat
deriving DecidableEq, Repr, Inhabited

/-- The frames in which a name is looked up, in order. -/
def Scope.chain (s : Scope) : List Nat := s.frame :: s.outer

/-- A function made by a program. Two functions are the same if they have the same
number, which is given when a function literal is evaluated. -/
structure Function where
  number : Nat
  name : Option String
  params : List String
  body : Block
  /-- the scope in which the function was made -/
  scope : Scope

/-- The name by which errors call a function. -/
def Function.displayName (f : Function) : String := f.name.getD "unda"

/-- The result of an evaluation. -/
inductive Value where
  | number (x : Float)
  | text (s : String)
  | boolean (b : Bool)
  | null
  | function (f : Function)
  | builtin (b : Builtin)
  | error (e : EvalError)
  /-- leaves a round of a loop -/
  | jump (j : Jump)
  /-- leaves a function with a value -/
  | returned (v : Value)

namespace Value

instance : Inhabited Value := ⟨null⟩

/-- Only `sikweli` and `tupu` count as false. -/
def truthy : Value → Bool
  | boolean b => b
  | null => false
  | _ => true

/-- Whether a value is an error. -/
def isError : Value → Bool
  | error _ => true
  | _ => false

/-- Whether a value is a signal and not data. -/
def isSignal : Value → Bool
  | jump _ | returned _ => true
  | _ => false

/-- The name of a value's type. -/
def typeName : Value → String
  | number _ => "NAMBA"
  | text _ => "NENO"
  | boolean _ => "BOOLEAN"
  | null => "TUPU"
  | function _ => "UNDO"
  | builtin _ => "YA_NDANI"
  | error _ => "KOSA"
  | jump .vunja => "VUNJA"
  | jump .endelea => "ENDELEA"
  | returned _ => "RUDISHA"

/-- How a value is printed. -/
def shown : Value → String
  | number x => (Number.ofFloat x).shown
  | text s => s
  | boolean true => "kweli"
  | boolean false => "sikweli"
  | null => "tupu"
  | function f => "unda(" ++ ", ".intercalate f.params ++ ")"
  | builtin b => "<" ++ b.name ++ ">"
  | error e => e.message
  | jump j => j.text
  | returned v => v.shown

/-- Equality as programs see it: numbers by value, functions by identity, values of
different types never. -/
def same : Value → Value → Bool
  | number x, number y => x == y
  | text s, text t => s == t
  | boolean a, boolean b => a == b
  | null, null => true
  | function f, function g => f.number == g.number
  | builtin a, builtin b => a == b
  | error e, error f => e == f
  | jump i, jump j => i == j
  | returned v, returned w => v.same w
  | _, _ => false

end Value

end Lugha
