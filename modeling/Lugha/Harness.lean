import Lugha.Eval

/-!
# Running tests

A test is a function bound at the top level to a name that begins with `pima_`. The
functions that a program declares are bound first, then the program runs, then every
test is called without arguments. A test fails if an assertion in it failed, with the
message of the last one, or if the call ended in an error.
-/

namespace Lugha

/-- A span of time. -/
structure Duration where
  secs : Nat
  nanos : Nat
deriving DecidableEq, Repr, Inhabited

/-- No time. -/
def Duration.zero : Duration := ⟨0, 0⟩

/-- A number of milliseconds. -/
def Duration.ofMillis (ms : Nat) : Duration := ⟨ms / 1000, ms % 1000 * 1000000⟩

/-- How one test went. -/
structure TestResult where
  name : String
  passed : Bool
  /-- why the test failed -/
  error : Option String
  /-- the lines printed while the test ran -/
  output : List String
  duration : Duration
deriving DecidableEq, Repr, Inhabited

/-- How the names of tests begin. -/
def testPrefix : String := "pima_"

/-- Whether a name is that of a test. -/
def isTestName (name : String) : Bool :=
  testPrefix.toList.isPrefixOf name.toList

namespace Stmt

/-- The name that a statement gives to a value at the top level. -/
def boundName? : Stmt → Option String
  | bind _ name _ => some name.name
  | s => s.declared?.map (·.name)

end Stmt

namespace Program

/-- The names of the tests of a program, in order. -/
def tests (p : Program) : List String :=
  (p.stmts.filterMap Stmt.boundName?).filter isTestName

/-- Binds the functions that a program declares at the top level. -/
def hoist (l : Limits) (s : Scope) (p : Program) (m : Machine) : Machine :=
  p.stmts.foldl (fun m stmt => if stmt.declared?.isSome then (stmt.run l s m).2 else m) m

/-- Calls a test whose assertions go to `log`. What it prints after the first `mark` lines
is its own output. -/
def runTest (l : Limits) (s : Scope) (log mark : Nat) (name : String) (m : Machine) :
    TestResult × Machine :=
  let (v, m) := (Expr.callByName name).run l s (m.clearLog log)
  let error :=
    match m.lastFailure? log, v with
    | some message, _ => some message
    | none, .error e => some e.message
    | none, _ => none
  let (output, m) := m.splitOutput mark
  (⟨name, error.isNone, error, output, .zero⟩, m)

/-- Calls tests one after the other. -/
def runEach (l : Limits) (s : Scope) (log mark : Nat) :
    List String → Machine → List TestResult × Machine
  | [], m => ([], m)
  | name :: names, m =>
    let (r, m) := runTest l s log mark name m
    let (rs, m) := runEach l s log mark names m
    (r :: rs, m)

/-- Runs a program and its tests. A log of their own is attached meanwhile. -/
def runTests (l : Limits) (s : Scope) (p : Program) (m : Machine) : List TestResult × Machine :=
  let before := m.reporter
  let (log, m) := m.newLog
  let m := p.hoist l s { m with reporter := some log }
  let (_, m) := p.run l s m
  let (results, m) := runEach l s log m.output.size p.tests m
  (results, { m with reporter := before })

end Program

end Lugha
