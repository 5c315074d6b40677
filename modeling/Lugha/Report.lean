import Lugha.Harness
import Lugha.Parser.Program

/-!
# Test reports

What a run of the tests of a source gives, and its text.
-/

namespace Lugha

/-- The result of running the tests of a source. -/
structure Summary where
  file : String
  results : List TestResult
  passed : Nat
  failed : Nat
  duration : Duration
  /-- why no test could run -/
  diagnostics : Diagnostics
  /-- the lines printed outside of tests -/
  output : List String

namespace TestResult

/-- A text filled with blanks to a width. -/
def padded (width : Nat) (s : String) : String :=
  s ++ String.ofList (List.replicate (width - s.length) ' ')

/-- The line of a test: its name in thirty columns, and whether it passed. -/
def text (r : TestResult) : String :=
  padded 30 r.name ++ "  " ++ if r.passed then "IMEPITA" else "IMEFELI"

end TestResult

/-- The length of a span of time in seconds. -/
def Duration.seconds (d : Duration) : Float :=
  let whole (n : Nat) : Float := decimalValue (Nat.toDigits 10 n) []
  whole d.secs + whole d.nanos / 1000000000.0

namespace Summary

/-- The summary of finished tests. -/
def ofResults (file : String) (results : List TestResult) (output : List String) : Summary where
  file
  results
  passed := results.countP (·.passed)
  failed := results.length - results.countP (·.passed)
  duration := .zero
  diagnostics := .empty
  output

/-- How many tests there are. -/
def total (s : Summary) : Nat := s.results.length

/-- A run succeeds if the source could be read and no test failed. -/
def success (s : Summary) : Bool := !s.diagnostics.hasErrors && s.failed == 0

/-- The tests that failed. -/
def failures (s : Summary) : List TestResult := s.results.filter fun r => !r.passed

/-- The heading of a report. -/
def heading : String :=
  "============================= JARIBIO LIMEANZA ============================="

/-- The heading of the failed tests. -/
def failureHeading : String :=
  "========================= MAJARIBIO YALIYOSHINDWA =========================="

/-- The lines of the failed tests. -/
def failureLines (s : Summary) : List String :=
  if s.failed = 0 then []
  else
    "" :: failureHeading :: s.failures.flatMap fun r =>
      ["_________________________ " ++ r.name ++ " _________________________",
        ">   " ++ r.error.getD "", ""]

/-- The last line: how many tests failed and passed, and in what time. -/
def closingLine (s : Summary) : String :=
  let failed := if s.failed = 0 then [] else [toString s.failed ++ " imeshindwa"]
  let parts := failed ++ [toString s.passed ++ " imefaulu",
    "kwa muda wa " ++ (Number.ofFloat s.duration.seconds).twoPlaces ++ "s"]
  "======================= " ++ ", ".intercalate parts ++ " ========================"

/-- The text of a report. -/
def text (s : Summary) : String :=
  if s.diagnostics.hasErrors then s.diagnostics.announcement ++ "\n"
  else if s.results.isEmpty then
    Text.joinLines (s.output ++ ["Hakuna majaribio yaliyopatikana"])
  else
    Text.joinLines <|
      s.output ++ [heading, "imekusanya vipengele " ++ toString s.total, ""] ++
      (s.results.flatMap fun r => r.output ++ [r.text]) ++ [""] ++ s.failureLines ++
      [s.closingLine]

end Summary

/-- Runs the tests of a source on a new machine. -/
def Source.runTests (src : Source) (l : Limits) : Summary :=
  match src.parse.accepted with
  | .error diagnostics => { Summary.ofResults src.name [] [] with diagnostics }
  | .ok program =>
    let (s, m) := ({} : Machine).newTop
    let (results, m) := program.runTests l s m
    .ofResults src.name results m.takeOutput.1

end Lugha
