import Lugha.CommandLine.Arguments
import Lugha.Text.Control
import Lugha.Text.Lines

/-!
# Help texts

What the program prints when it is asked for help. The variables of the environment
that stand for an option are shown with their values. The names of options are in bold,
which is seen at a terminal only: elsewhere the text is without control sequences, those
in the values of variables included.
-/

namespace Lugha.CommandLine

/-- The variables of the environment. -/
abbrev Environment := String → Option String

/-- The variable for the limit of loops. -/
def iterationsVariable : String := "NURU_MAX_ITERATIONS"

/-- The variable for the limit of calls. -/
def callDepthVariable : String := "NURU_MAX_CALL_DEPTH"

/-- The version of the program. -/
def version : String := "nuru 0.5.18\n"

/-- How a variable is shown beside its option. -/
def variableNote (env : Environment) (name : String) : String :=
  "[env: " ++ name ++ "=" ++ (env name).getD "" ++ "]"

/-- A piece of text in bold. -/
def bold (text : String) : String := "\x1b[1m" ++ text ++ "\x1b[0m"

/-- The name of an option. -/
inductive OptionName where
  | long (name argument : String)
  | shortOrLong (letter : Char) (name : String)

/-- How an option is named in the list of options. -/
def OptionName.line : OptionName → String
  | long name argument => "      " ++ bold ("--" ++ name) ++ argument
  | shortOrLong letter name => "  " ++ bold ("-" ++ letter.toString) ++ ", " ++ bold ("--" ++ name)

/-- What is said about an option, each line of it with blanks before it. -/
def noteLines (note : String) : List String :=
  (Text.pieces note.toList).map fun line => "          " ++ String.ofList line

/-- An option in the list of options. -/
def optionLines (name : OptionName) (note : String) : List String :=
  name.line :: noteLines note

/-- The options that every command takes. -/
def commonOptions (env : Environment) : List String :=
  optionLines (.long "max-iterations" " <MAX_ITERATIONS>")
      ("Condition checks allowed per `wakati` loop " ++
        variableNote env iterationsVariable ++ " [default: 1000000]") ++
    optionLines (.long "max-call-depth" " <MAX_CALL_DEPTH>")
      ("Function calls that may be active at once " ++
        variableNote env callDepthVariable ++ " [default: 5000]") ++
    optionLines (.shortOrLong 'v' "verbose") "Enable debug logging" ++
    optionLines (.shortOrLong 'h' "help") "Print help [alias: --msaada]"

/-- The help text of a topic, line by line. -/
def helpLines (env : Environment) : Topic → List String
  | .program =>
    ["Lugha ya programu ya Kiswahili",
      "",
      "Usage: nuru [OPTIONS] [FILE]",
      "       nuru <COMMAND>",
      "",
      "Commands:",
      "  pima    Run the pima_ test functions of a file",
      "  msaada  Print help",
      "  toleo   Print version [alias: version]",
      "  help    Print this message or the help of the given subcommand(s)",
      "",
      "Arguments:",
      "  [FILE]  Nuru file to run (.nr or .sw). Starts the REPL when omitted",
      "",
      "Options:"] ++
      commonOptions env ++
      optionLines (.shortOrLong 'V' "version") "Print version [alias: --toleo]"
  | .command .pima =>
    ["Run the pima_ test functions of a file",
      "",
      "Usage: nuru pima [OPTIONS] <FILE>",
      "",
      "Arguments:",
      "  <FILE>  ",
      "",
      "Options:"] ++
      optionLines (.long "json" "") "Print the report as JSON" ++
      commonOptions env
  | .command .msaada =>
    ["Print help", "", "Usage: nuru msaada [OPTIONS]", "", "Options:"] ++ commonOptions env
  | .command .toleo =>
    ["Print version", "", "Usage: nuru toleo [OPTIONS]", "", "Options:"] ++ commonOptions env
  | .help =>
    ["Print this message or the help of the given subcommand(s)",
      "",
      "Usage: nuru help [COMMAND]...",
      "",
      "Arguments:",
      "  [COMMAND]...  Print help for the subcommand(s)"]

/-- The help text of a topic, without control sequences. -/
def helpText (env : Environment) (topic : Topic) : String :=
  Text.withoutControls (Text.joinLines (helpLines env topic))

end Lugha.CommandLine
