import Lugha.Eval
import Lugha.Parser.Program
import Lugha.Text.Blank
import Lugha.Text.Cluster

/-!
# Running sources, whole or line by line

A source runs on a new machine. A session keeps its machine from one piece of input
to the next. Input is complete when it closes every bracket that it opens, and lines
are gathered until it is.
-/

namespace Lugha

/-- What a program printed, and the error that ended it. -/
structure RunReport where
  output : List String
  error : Option EvalError
deriving DecidableEq, Repr, Inhabited

/-- Runs a source on a new machine, if it can be read. -/
def Source.run (src : Source) (l : Limits) : Except Diagnostics RunReport :=
  match src.parse.accepted with
  | .error diagnostics => .error diagnostics
  | .ok program =>
    let (s, m) := ({} : Machine).newTop
    let (v, m) := program.run l s m
    let error :=
      match v with
      | .error e => some e
      | _ => none
    .ok ⟨m.takeOutput.1, error⟩

/-- What came of a piece of input. -/
inductive Outcome where
  | empty
  | exit
  /-- the printed lines, and the value if there is one to show -/
  | evaluated (output : List String) (value : Option Value)
  | malformed (diagnostics : Diagnostics)

/-- The state that is kept between pieces of input. -/
structure Session where
  limits : Limits
  machine : Machine
  scope : Scope
  /-- how many pieces of input were read as programs -/
  count : Nat

namespace Session

/-- A new session. -/
def start (l : Limits) : Session :=
  let (s, m) := ({} : Machine).newTop
  ⟨l, m, s, 0⟩

/-- The names that mean something in a session. -/
def names (s : Session) : List String := s.machine.names s.scope

/-- The inputs that end a session. -/
def exitCommands : List String := ["toka()", "exit()"]

/-- Evaluates a piece of input, without the blanks around it. -/
def eval (s : Session) (line : String) : Outcome × Session :=
  let input := Text.trim line
  if input.isEmpty then (.empty, s)
  else if exitCommands.contains input then (.exit, s)
  else
    let s := { s with count := s.count + 1 }
    let src : Source := ⟨"<mstari " ++ toString s.count ++ ">", input⟩
    match src.parse.accepted with
    | .error diagnostics => (.malformed diagnostics, s)
    | .ok program =>
      let (v, m) := program.run s.limits s.scope s.machine
      let (output, m) := m.takeOutput
      let value :=
        match v with
        | .null => none
        | v => some v
      (.evaluated output value, { s with machine := m })

end Session

namespace Outcome

/-- The text that shows an outcome. -/
def text : Outcome → String
  | empty | exit => ""
  | evaluated output value =>
    Text.joinLines (output ++ (value.map Value.shown).toList)
  | malformed diagnostics => diagnostics.announcement ++ "\n"

/-- Whether the session ends. -/
def isExit : Outcome → Bool
  | exit => true
  | _ => false

end Outcome

/-! ### Lines of input -/

/-- How a token changes the number of open brackets. -/
def TokenKind.nesting : TokenKind → Int
  | symbol .openBrace | symbol .openParen => 1
  | symbol .closeBrace | symbol .closeParen => -1
  | _ => 0

/-- Whether a piece of input closes all brackets that it opens. -/
def isComplete (input : String) : Bool :=
  decide (((scan input).1.foldl (fun n t => n + t.kind.nesting) 0) ≤ 0)

/-- Adds a line to a piece of input. -/
def addLine (input line : String) : String :=
  if input.isEmpty then line else input ++ "\n" ++ line

/-- Gathers lines into complete pieces of input. The lines that are left over at the end
belong to no piece. -/
def chunks (input : String) : List String → List String
  | [] => []
  | line :: lines =>
    let input := addLine input line
    if isComplete input then input :: chunks "" lines else chunks input lines

/-- The lines of a text, without their ends and with their backspaces carried out. A
carriage return belongs to the end of a line only before a newline. -/
def inputLines (text : String) : List String :=
  let withoutReturn (l : List Char) : List Char :=
    if l.getLast? = some '\r' then l.dropLast else l
  let all := Text.pieces text.toList
  let ended := all.dropLast.map withoutReturn
  let last := (all.getLast?.getD [])
  (if last.isEmpty then ended else ended ++ [last]).map fun l =>
    Text.backspaced (String.ofList l)

namespace Session

/-- Evaluates pieces of input up to the one that ends the session, and shows what came
of them. -/
def converse (s : Session) : List String → String
  | [] => ""
  | input :: inputs =>
    let (outcome, s) := s.eval input
    if outcome.isExit then "" else outcome.text ++ s.converse inputs

/-- How a session begins. -/
def greeting : String := "Karibu Nuru v0.5.18\nTumia exit() au toka() kuondoka\n"

/-- How a session ends. -/
def farewell : String := "Kwaheri!\n"

/-- What asks for input at a terminal. -/
def prompt : String := ">>> "

/-- What asks for the next line of a piece of input that is not complete. -/
def continuationPrompt : String := "... "

/-- The file in which a terminal keeps the lines that were typed. -/
def historyFile : String := ".nuru_history"

/-- All that a session shows for a text of input that is not typed at a terminal. -/
def transcript (l : Limits) (text : String) : String :=
  greeting ++ (start l).converse (chunks "" (inputLines text)) ++ farewell

end Session

end Lugha
