import Lugha.Number.Decimal

/-!
# Command-line arguments

Arguments are read from left to right. A command is recognised only as the first
argument; options and the file come after it, in any order, each at most once. Help
and version are answered as soon as they are asked for, whatever follows.
-/

namespace Lugha.CommandLine

/-- What can be called for by its own word. -/
inductive Command where
  /-- runs the tests of a file -/
  | pima
  /-- prints help -/
  | msaada
  /-- prints the version -/
  | toleo
deriving DecidableEq, Repr

/-- The command of a given word. -/
def Command.ofWord? : String → Option Command
  | "pima" => some .pima
  | "msaada" => some .msaada
  | "toleo" | "version" => some .toleo
  | _ => none

/-- The options and the file that were given. -/
structure Given where
  file : Option String := none
  iterations : Option Nat := none
  callDepth : Option Nat := none
  verbose : Bool := false
  json : Bool := false

/-- What help is about. -/
inductive Topic where
  | program
  | command (c : Command)
  /-- the word `help` itself -/
  | help
deriving DecidableEq, Repr

/-- What the arguments ask for. -/
inductive Request where
  | help (topic : Topic)
  | version
  | perform (command : Option Command) (given : Given)

/-! ### Options -/

/-- What an argument that begins with a dash stands for. -/
inductive Flag where
  | iterations
  | callDepth
  | verbose
  | json
  | help
  | version
deriving DecidableEq, Repr

namespace Flag

/-- The long options of a command; without a command, of the program itself. -/
def ofLong? (command : Option Command) : String → Option Flag
  | "max-iterations" => some iterations
  | "max-call-depth" => some callDepth
  | "verbose" => some verbose
  | "help" | "msaada" => some help
  | "json" => if command = some .pima then some json else none
  | "version" | "toleo" => if command = none then some version else none
  | _ => none

/-- The short options of a command. -/
def ofShort? (command : Option Command) : Char → Option Flag
  | 'v' => some verbose
  | 'h' => some help
  | 'V' => if command = none then some version else none
  | _ => none

/-- Whether a value follows. -/
def takesValue : Flag → Bool
  | iterations | callDepth => true
  | _ => false

end Flag

/-- Reads a number that fits in 64 bits; it may have a plus sign. -/
def number? (s : String) : Option Nat :=
  let digits :=
    match s.toList with
    | '+' :: rest => rest
    | cs => cs
  if digits.isEmpty || digits.any (fun c => !c.isDigit) then none
  else
    let n := digitsValue digits
    if n < twoTo 64 then some n else none

namespace Given

/-- Sets an option that takes a number. An option cannot be given twice. -/
def setNumber (g : Given) (f : Flag) (value : String) : Option Given := do
  let n ← number? value
  match f with
  | .iterations => if g.iterations.isSome then none else some { g with iterations := some n }
  | .callDepth => if g.callDepth.isSome then none else some { g with callDepth := some n }
  | _ => none

/-- Sets an option that takes no value. An option cannot be given twice. -/
def setFlag (g : Given) (f : Flag) : Option Given :=
  match f with
  | .verbose => if g.verbose then none else some { g with verbose := true }
  | .json => if g.json then none else some { g with json := true }
  | _ => none

/-- Sets the file, which is not empty. Only `pima` and the program itself take one. -/
def setFile (g : Given) (command : Option Command) (path : String) : Option Given :=
  if (command = none ∨ command = some .pima) ∧ g.file = none ∧ path ≠ "" then
    some { g with file := some path }
  else none

end Given

/-! ### Reading -/

/-- The result of reading an option: reading goes on, or the answer is known. -/
inductive Step where
  | more (g : Given)
  | done (r : Request)

/-- Takes an option without a value. -/
def takeFlag (command : Option Command) (g : Given) : Flag → Option Step
  | .help =>
    match command with
    | none => some (.done (.help .program))
    | some c => some (.done (.help (.command c)))
  | .version => some (.done .version)
  | f => (g.setFlag f).map .more

/-- Takes a row of short options. -/
def takeShorts (command : Option Command) : Given → List Char → Option Step
  | g, [] => some (.more g)
  | g, c :: cs =>
    match (Flag.ofShort? command c).bind (takeFlag command g) with
    | some (.more g) => takeShorts command g cs
    | r => r

/-- The name and the value of a long option, which an equals sign divides. -/
def splitLong (cs : List Char) : String × Option String :=
  match cs.span (· != '=') with
  | (name, []) => (String.ofList name, none)
  | (name, _ :: value) => (String.ofList name, some (String.ofList value))

/-- Whether an argument is an option rather than a value. -/
def isOption (arg : String) : Bool :=
  match arg.toList with
  | '-' :: _ :: _ => true
  | _ => false

/-- Reads arguments that are all files. -/
def readFiles (command : Option Command) : Given → List String → Option Request
  | g, [] => some (.perform command g)
  | g, path :: rest => (g.setFile command path).bind fun g => readFiles command g rest

/-- Reads the arguments of a command. After `--` all arguments are files. -/
def readOptions (command : Option Command) : Given → List String → Option Request
  | g, [] => some (.perform command g)
  | g, arg :: rest =>
    match arg.toList with
    | ['-', '-'] => readFiles command g rest
    | '-' :: '-' :: cs =>
      match splitLong cs with
      | (name, some value) => do
        let f ← Flag.ofLong? command name
        let g ← g.setNumber f value
        readOptions command g rest
      | (name, none) => do
        let f ← Flag.ofLong? command name
        if f.takesValue then
          match rest with
          | value :: rest =>
            if isOption value then none
            else
              let g ← g.setNumber f value
              readOptions command g rest
          | [] => none
        else
          match ← takeFlag command g f with
          | .more g => readOptions command g rest
          | .done r => some r
    | '-' :: c :: cs => do
      match ← takeShorts command g (c :: cs) with
      | .more g => readOptions command g rest
      | .done r => some r
    | _ => (g.setFile command arg).bind fun g => readOptions command g rest

/-- Reads the topic after `help`. -/
def readTopic : List String → Option Request
  | [] => some (.help .program)
  | ["help"] => some (.help .help)
  | [word] => (Command.ofWord? word).map fun c => .help (.command c)
  | _ => none

/-- Reads all arguments; none if they are used wrongly. -/
def read (args : List String) : Option Request :=
  match args with
  | [] => some (.perform none {})
  | word :: rest =>
    if word = "help" then readTopic rest
    else
      match Command.ofWord? word with
      | some c => readOptions (some c) {} rest
      | none => readOptions none {} args

end Lugha.CommandLine
