import Lugha.CommandLine.Help
import Lugha.Path
import Lugha.Report.Json
import Lugha.Session

/-!
# The command line

What the program does for its arguments: the plan that the arguments and the
environment ask for, and what carrying out the plan prints.
-/

namespace Lugha

/-- Why a source file could not be loaded. -/
inductive LoadError where
  | extension (path : String)
  | unreadable (path : String)
deriving DecidableEq, Repr

/-- The wording of an error. -/
def LoadError.message : LoadError → String
  | extension path => "'" ++ path ++ "' sii faili sahihi. Tumia faili la '.nr' au '.sw'"
  | unreadable path => "Nuru imeshindwa kusoma faili: " ++ path

/-- Loads a source file, by a given way to read files. Only files with the right extension
are read. -/
def loadSource (read : String → Option String) (path : String) : Except LoadError Source :=
  if Path.isSource path then
    match read path with
    | some text => .ok ⟨path, text⟩
    | none => .error (.unreadable path)
  else .error (.extension path)

namespace CommandLine

/-- What to do. -/
inductive Plan where
  /-- the arguments are used wrongly -/
  | refuse
  | print (text : String)
  | runFile (path : String) (limits : Limits)
  | testFile (path : String) (json : Bool) (limits : Limits)
  | converse (limits : Limits)

/-- A limit: the option if it was given, else the variable of the environment, else the usual
value. A variable that is no number is an error, except where it is not looked at: without
a command, when the option was given. -/
def limit? (command : Option Command) (given : Option Nat) (setting : Option String)
    (usual : Nat) : Option Nat :=
  match given, setting with
  | given, none => some (given.getD usual)
  | none, some v => number? v
  | some n, some v => if command.isNone ∨ (number? v).isSome then some n else none

/-- The plan for a request that is neither for help nor for the version. -/
def performPlan (env : Environment) (command : Option Command) (given : Given) : Option Plan := do
  let usual : Limits := {}
  let iterations ← limit? command given.iterations (env iterationsVariable) usual.iterations
  let callDepth ← limit? command given.callDepth (env callDepthVariable) usual.callDepth
  let limits : Limits := ⟨iterations, callDepth⟩
  match command with
  | some .pima => return .testFile (← given.file) given.json limits
  | some .msaada => return .print (helpText env .program ++ "\n")
  | some .toleo => return .print (version ++ "\n")
  | none =>
    match given.file with
    | some path => return .runFile path limits
    | none => return .converse limits

/-- The plan for arguments and an environment. -/
def plan (env : Environment) (args : List String) : Plan :=
  match read args with
  | none => .refuse
  | some (.help topic) => .print (helpText env topic)
  | some .version => .print version
  | some (.perform command given) => (performPlan env command given).getD .refuse

/-- What the program leaves: its exit code, and what it wrote to its two outputs. -/
structure Answer where
  code : Nat
  out : String
  err : String := ""

/-- Runs a source: what it prints, and the error that ended it. -/
def runAnswer (src : Source) (limits : Limits) : Answer :=
  match src.run limits with
  | .error diagnostics => ⟨1, "", diagnostics.announcement ++ "\n"⟩
  | .ok report =>
    let out := Text.joinLines report.output
    match report.error with
    | some e => ⟨1, out, e.message ++ "\n"⟩
    | none => ⟨0, out, ""⟩

/-- Reports on tests, as text or as JSON. -/
def testAnswer (summary : Summary) (json : Bool) : Answer :=
  let out := if json then summary.toJson.pretty ++ "\n" else summary.text
  ⟨if summary.success then 0 else 1, out, ""⟩

/-- Goes on with a source that was loaded, or reports why it was not. -/
def withSource (loaded : Except LoadError Source) (k : Source → Answer) : Answer :=
  match loaded with
  | .ok src => k src
  | .error e => ⟨1, "", e.message ++ "\n"⟩

/-- Carries out a plan, by a given way to read files and a given input. -/
def Plan.answer (files : String → Option String) (input : String) : Plan → Answer
  | .refuse => ⟨2, "", "Usage: nuru [OPTIONS] [FILE]\n"⟩
  | .print text => ⟨0, text, ""⟩
  | .runFile path limits => withSource (loadSource files path) (runAnswer · limits)
  | .testFile path json limits =>
    withSource (loadSource files path) fun src => testAnswer (src.runTests limits) json
  | .converse limits => ⟨0, Session.transcript limits input, ""⟩

end CommandLine

end Lugha
