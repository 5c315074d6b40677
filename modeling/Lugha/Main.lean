import Lugha.CommandLine

/-!
# The program

Reads files, the environment and the input for the command line, and prints what it
answers.
-/

namespace Lugha.CommandLine

/-- Writes an answer and gives its exit code. -/
def Answer.emit (a : Answer) : IO UInt32 := do
  IO.print a.out
  IO.eprint a.err
  return a.code.toUInt32

/-- The text of a file, if it can be read. -/
def fileText (path : String) : IO (Option String) := do
  try
    return some (← IO.FS.readFile path)
  catch _ =>
    return none

/-- Asks for a line, if the input is typed at a terminal. -/
def ask (input : String) : IO Unit := do
  if ← (← IO.getStdin).isTty then
    IO.print (if input.isEmpty then Session.prompt else Session.continuationPrompt)
    (← IO.getStdout).flush

/-- Reads lines and answers each complete piece of input, until the session or the input
ends. -/
partial def converseLoop (session : Session) (input : String) : IO Unit := do
  ask input
  let line ← (← IO.getStdin).getLine
  match inputLines line with
  | [] => return
  | line :: _ =>
    let input := addLine input line
    if isComplete input then
      let (outcome, session) := session.eval input
      IO.print outcome.text
      (← IO.getStdout).flush
      unless outcome.isExit do converseLoop session ""
    else converseLoop session input

/-- Carries out a plan. -/
def Plan.carryOut : Plan → IO UInt32
  | .converse limits => do
    IO.print Session.greeting
    converseLoop (.start limits) ""
    IO.print Session.farewell
    return 0
  | .testFile path json limits => do
    let text ← fileText path
    match loadSource (fun _ => text) path with
    | .error e => Answer.emit ⟨1, "", e.message ++ "\n"⟩
    | .ok src =>
      let started ← IO.monoMsNow
      let summary ← IO.lazyPure fun _ => src.runTests limits
      let ended ← IO.monoMsNow
      (testAnswer { summary with duration := .ofMillis (ended - started) } json).emit
  | .runFile path limits => do
    let text ← fileText path
    (Plan.runFile path limits |>.answer (fun _ => text) "").emit
  | p => (p.answer (fun _ => none) "").emit

end Lugha.CommandLine

/-- Runs the program on its arguments. -/
def main (args : List String) : IO UInt32 := do
  let iterations ← IO.getEnv Lugha.CommandLine.iterationsVariable
  let callDepth ← IO.getEnv Lugha.CommandLine.callDepthVariable
  let env (name : String) : Option String :=
    if name == Lugha.CommandLine.iterationsVariable then iterations
    else if name == Lugha.CommandLine.callDepthVariable then callDepth
    else none
  (Lugha.CommandLine.plan env args).carryOut
