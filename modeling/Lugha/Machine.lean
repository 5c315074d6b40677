import Lugha.Bindings
import Lugha.Value

/-!
# The machine

The state that a program works on: the frames of all scopes, the printed lines,
the logs of assertions, and how many functions were made and calls are under way.
A run changes the machine and ends with a result or with an error; the machine
keeps what was done before an error.
-/

namespace Lugha

/-- The outcome of one assertion. -/
structure Event where
  passed : Bool
  message : String
deriving DecidableEq, Repr, Inhabited

/-- The limits that end a run. -/
structure Limits where
  /-- condition checks of one activation of a loop -/
  iterations : Nat := 1000000
  /-- calls of functions that may be under way at once -/
  callDepth : Nat := 5000
deriving DecidableEq, Repr, Inhabited

/-- The state of a program. -/
structure Machine where
  /-- the names bound in each frame -/
  frames : Array (Bindings Value) := #[]
  /-- the printed lines that nobody has taken yet -/
  output : Array String := #[]
  /-- the logs of assertions -/
  logs : Array (Array Event) := #[]
  /-- the log that receives the outcomes of assertions, if one is attached -/
  reporter : Option Nat := none
  /-- how many functions were made -/
  functions : Nat := 0
  /-- how many calls of functions are under way -/
  depth : Nat := 0

instance : Inhabited Machine := ⟨{}⟩

/-- The result of evaluating something: a value or an error, and the machine after it. -/
abbrev Run (α : Type) := EStateM EvalError Machine α

namespace Machine

/-! ### Scopes -/

/-- The names bound in a frame. -/
def frame (m : Machine) (i : Nat) : Bindings Value := m.frames.getD i []

/-- Makes a scope that is inside no other. -/
def newTop (m : Machine) : Scope × Machine :=
  (⟨m.frames.size, []⟩, { m with frames := m.frames.push [] })

/-- Makes a scope inside another one. -/
def enclose (m : Machine) (outer : Scope) : Scope × Machine :=
  (⟨m.frames.size, outer.chain⟩, { m with frames := m.frames.push [] })

/-- What a name is bound to in the first of the given frames that binds it. -/
def find? (m : Machine) (name : String) : List Nat → Option Value
  | [] => none
  | i :: outer =>
    match Bindings.get? name (m.frame i) with
    | some v => some v
    | none => m.find? name outer

/-- The first of the given frames that binds a name. -/
def owner? (m : Machine) (name : String) : List Nat → Option Nat
  | [] => none
  | i :: outer => if Bindings.binds name (m.frame i) then some i else m.owner? name outer

/-- What a name means in a scope. -/
def get? (m : Machine) (s : Scope) (name : String) : Option Value :=
  m.find? name s.chain

/-- Binds a name in one frame. -/
def put (m : Machine) (i : Nat) (name : String) (v : Value) : Machine :=
  { m with frames := m.frames.modify i (Bindings.insert name v) }

/-- Binds a name in the scope itself, whatever it means outside. -/
def set (m : Machine) (s : Scope) (name : String) (v : Value) : Machine :=
  m.put s.frame name v

/-- Changes what a name means in a scope, in the frame that binds it. Nothing changes,
and the answer is `false`, if no frame of the scope binds it. -/
def assign (m : Machine) (s : Scope) (name : String) (v : Value) : Bool × Machine :=
  match m.owner? name s.chain with
  | some i => (true, m.put i name v)
  | none => (false, m)

/-- All names that mean something in a scope, in increasing order. -/
def names (m : Machine) (s : Scope) : List String :=
  Bindings.names (s.chain.foldl (fun all i => Bindings.union all (m.frame i)) [])

/-! ### Output and logs -/

/-- Prints a line. -/
def print (m : Machine) (line : String) : Machine :=
  { m with output := m.output.push line }

/-- Takes all printed lines. -/
def takeOutput (m : Machine) : List String × Machine :=
  (m.output.toList, { m with output := #[] })

/-- Takes the printed lines after the first `n`. -/
def splitOutput (m : Machine) (n : Nat) : List String × Machine :=
  ((m.output.extract n m.output.size).toList, { m with output := m.output.extract 0 n })

/-- Makes an empty log. -/
def newLog (m : Machine) : Nat × Machine :=
  (m.logs.size, { m with logs := m.logs.push #[] })

/-- The events of a log, in order. -/
def events (m : Machine) (log : Nat) : List Event :=
  (m.logs.getD log #[]).toList

/-- The message of the last failed assertion in a log. -/
def lastFailure? (m : Machine) (log : Nat) : Option String :=
  ((m.events log).reverse.find? fun e => !e.passed).map (·.message)

/-- Empties a log. -/
def clearLog (m : Machine) (log : Nat) : Machine :=
  { m with logs := m.logs.modify log fun _ => #[] }

/-- Adds an event to a log. -/
def record (m : Machine) (log : Nat) (e : Event) : Machine :=
  { m with logs := m.logs.modify log (·.push e) }

end Machine

end Lugha
