import Lugha.Json
import Lugha.Report

/-!
# Reports as JSON

How spans, diagnostics and summaries are written as JSON, and how they are read
back. A field that would be empty is left out; when it is read, a missing field is
empty. Numbers have to be in the range of their field. Unknown fields are passed over,
and a field of the record that is given twice makes it unreadable. A record may also be
given as an array of its fields in order, where a field that may be missing may be
missing at the end.
-/

namespace Lugha

/-! ### Writing -/

/-- The fields of a span. -/
def Span.fields (s : Span) : List (String × Json) :=
  [("line", .ofNat s.first.line), ("column", .ofNat s.first.column),
    ("end_line", .ofNat s.last.line), ("end_column", .ofNat s.last.column)]

/-- A span as JSON. -/
def Span.toJson (s : Span) : Json := .obj s.fields

/-- A diagnostic as JSON. -/
def Diagnostic.toJson (d : Diagnostic) : Json :=
  .obj <|
    [("file", .str d.file), ("code", .ofNat d.code), ("message", .str d.message)] ++
    d.span.fields ++ [("source_line", .str d.sourceLine)] ++
    d.suggestion.toList.map fun s => ("suggestion", .str s)

/-- A list of diagnostics as JSON. -/
def ErrorList.toJson (ds : Diagnostics) : Json :=
  .obj [("errors", .arr (ds.kept.map Diagnostic.toJson)), ("total_errors", .ofNat ds.total)]

/-- A span of time as JSON. -/
def Duration.toJson (d : Duration) : Json :=
  .obj [("secs", .ofNat d.secs), ("nanos", .ofNat d.nanos)]

/-- The field of printed lines, if there are any. -/
def outputField (output : List String) : List (String × Json) :=
  if output.isEmpty then [] else [("output", .ofTexts output)]

/-- A test result as JSON. -/
def TestResult.toJson (r : TestResult) : Json :=
  .obj <|
    [("name", .str r.name), ("passed", .bool r.passed)] ++
    (r.error.toList.map fun e => ("error", .str e)) ++ outputField r.output ++
    [("duration", r.duration.toJson)]

/-- A summary as JSON. -/
def Summary.toJson (s : Summary) : Json :=
  .obj <|
    [("file", .str s.file), ("results", .arr (s.results.map TestResult.toJson)),
      ("passed", .ofNat s.passed), ("failed", .ofNat s.failed),
      ("duration", s.duration.toJson)] ++
    (if s.diagnostics.hasErrors then [("syntax_errors", s.diagnostics.toJson)] else []) ++
    outputField s.output

/-! ### Reading -/

namespace Json

/-- A natural number of at most `bits` bits. -/
def nat? (bits : Nat) : Json → Option Nat
  | int n => if 0 ≤ n ∧ n < twoTo bits then some n.toNat else none
  | _ => none

/-- A text. -/
def text? : Json → Option String
  | str s => some s
  | _ => none

/-- A truth value. -/
def bool? : Json → Option Bool
  | bool b => some b
  | _ => none

/-- An array whose items can all be read. -/
def list? {α : Type} (item? : Json → Option α) : Json → Option (List α)
  | arr items => items.mapM item?
  | _ => none

/-- A value that may be `null`. -/
def nullable? {α : Type} (item? : Json → Option α) : Json → Option (Option α)
  | null => some none
  | v => (item? v).map some

/-- A value in which no field with one of the names is given twice. -/
def once? (names : List String) : Json → Option Json
  | obj fields =>
    if names.any fun name => 1 < fields.countP fun f => f.1 == name then none
    else some (obj fields)
  | v => some v

/-- The fields of a record that may only be given as an object. -/
def object? : Json → Option (String → Option Json)
  | obj fields => some fun name => (obj fields).field? name
  | _ => none

/-- The fields of a record, given as an object in which none of `names` occurs twice, or as an
array in the order of `names`. A longer array is no record. -/
def record? (names : List String) : Json → Option (String → Option Json)
  | arr items =>
    if items.length ≤ names.length then
      some fun name => ((names.zip items).find? fun f => f.1 == name).map Prod.snd
    else none
  | v => (once? names v).bind object?

/-- Reads a field that may be missing. -/
def fieldOr {α : Type} (missing : α) (item? : Json → Option α) : Option Json → Option α
  | none => some missing
  | some v => item? v

end Json

open Json

/-- Reads a span from the fields of a record. -/
def Span.ofFields? (get : String → Option Json) : Option Span := do
  let line ← (get "line").bind (nat? 32)
  let column ← (get "column").bind (nat? 32)
  let endLine ← (get "end_line").bind (nat? 32)
  let endColumn ← (get "end_column").bind (nat? 32)
  return ⟨⟨line, column⟩, ⟨endLine, endColumn⟩⟩

/-- Reads a diagnostic. -/
def Diagnostic.ofJson? (v : Json) : Option Diagnostic := do
  let names := ["file", "code", "message", "line", "column", "end_line", "end_column",
    "source_line", "suggestion"]
  let get ← (once? names v).bind object?
  let file ← (get "file").bind text?
  let code ← (get "code").bind (nat? 16)
  let message ← (get "message").bind text?
  let span ← Span.ofFields? get
  let sourceLine ← (get "source_line").bind text?
  let suggestion ← fieldOr none (nullable? text?) (get "suggestion")
  return { file, code, message, span, sourceLine, suggestion }

/-- Reads a list of diagnostics. -/
def ErrorList.ofJson? (v : Json) : Option Diagnostics := do
  let get ← record? ["errors", "total_errors"] v
  let kept ← (get "errors").bind (list? Diagnostic.ofJson?)
  let total ← (get "total_errors").bind (nat? 64)
  return ⟨kept, total⟩

/-- A span of time from seconds and any number of nanoseconds, if the seconds stay in
range. -/
def Duration.make? (secs nanos : Nat) : Option Duration :=
  let secs := secs + nanos / 1000000000
  if secs < twoTo 64 then some ⟨secs, nanos % 1000000000⟩ else none

/-- Reads a span of time. It has no other fields than its own. -/
def Duration.ofJson? (v : Json) : Option Duration := do
  let names := ["secs", "nanos"]
  let get ← record? names v
  match v with
  | .obj fields => if fields.any (fun f => !names.contains f.1) then none
  | _ => pure ()
  let secs ← (get "secs").bind (nat? 64)
  let nanos ← (get "nanos").bind (nat? 32)
  Duration.make? secs nanos

/-- Reads a test result. -/
def TestResult.ofJson? (v : Json) : Option TestResult := do
  let get ← record? ["name", "passed", "error", "output", "duration"] v
  let name ← (get "name").bind text?
  let passed ← (get "passed").bind bool?
  let error ← fieldOr none (nullable? text?) (get "error")
  let output ← fieldOr [] (list? text?) (get "output")
  let duration ← (get "duration").bind Duration.ofJson?
  return { name, passed, error, output, duration }

/-- Reads a summary. -/
def Summary.ofJson? (v : Json) : Option Summary := do
  let get ← record?
    ["file", "results", "passed", "failed", "duration", "syntax_errors", "output"] v
  let file ← (get "file").bind text?
  let results ← (get "results").bind (list? TestResult.ofJson?)
  let passed ← (get "passed").bind (nat? 64)
  let failed ← (get "failed").bind (nat? 64)
  let duration ← (get "duration").bind Duration.ofJson?
  let diagnostics ← fieldOr .empty ErrorList.ofJson? (get "syntax_errors")
  let output ← fieldOr [] (list? text?) (get "output")
  return { file, results, passed, failed, duration, diagnostics, output }

/-- Reads limits; a missing one takes its usual value. -/
def Limits.ofJson? (v : Json) : Option Limits := do
  let usual : Limits := {}
  let get ← record? ["max_iterations", "max_call_depth"] v
  let iterations ← fieldOr usual.iterations (nat? 64) (get "max_iterations")
  let callDepth ← fieldOr usual.callDepth (nat? 64) (get "max_call_depth")
  return { iterations, callDepth }

end Lugha
