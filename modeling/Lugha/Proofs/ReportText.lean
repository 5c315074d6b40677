import Lugha.Proofs.JsonText
import Lugha.Report.Json

/-!
# Reading reports back

A report is written as JSON text and read back as it was.  A field that is left out when it
is empty is empty when it is missing, the fields of a span stand among those of their
diagnostic, and every number has to fit its field.

For each record there is one lemma, that reading undoes writing, about values that are in
range; a list of records is read back if each of them is.  The text itself is read back by
`Json.parse?_pretty`, since a report holds no other numbers than integers.
-/

namespace Lugha

open Json

/-! ### Ranges -/

/-- Both ends of a span have 32 bits for the line and 32 for the column. -/
structure Span.InRange (s : Span) : Prop where
  firstLine : s.first.line < UInt32.size
  firstColumn : s.first.column < UInt32.size
  lastLine : s.last.line < UInt32.size
  lastColumn : s.last.column < UInt32.size

/-- The code of a diagnostic has 16 bits. -/
structure Diagnostic.InRange (d : Diagnostic) : Prop where
  code : d.code < UInt16.size
  span : d.span.InRange

/-- Seconds have 64 bits, and the nanoseconds are less than a second. -/
structure Duration.InRange (d : Duration) : Prop where
  secs : d.secs < UInt64.size
  nanos : d.nanos < 1000000000

/-- Counts have 64 bits, and all parts of a report are in range. -/
structure Summary.InRange (s : Summary) : Prop where
  passed : s.passed < UInt64.size
  failed : s.failed < UInt64.size
  duration : s.duration.InRange
  results : ∀ r ∈ s.results, r.duration.InRange
  errors : ∀ d ∈ s.diagnostics.kept, d.InRange
  total : s.diagnostics.total < UInt64.size

/-! ### Parts of records -/

namespace Json

/-- A number that fits its field is read back. -/
lemma nat?_ofNat (bits : Nat) {n : Nat} (h : n < twoTo bits) :
    nat? bits (.ofNat n) = some n := by
  have hrange : 0 ≤ (n : Int) ∧ (n : Int) < (twoTo bits : Int) := by omega
  simp only [nat?, Json.ofNat, hrange, and_self, if_true, Int.toNat_natCast]

/-- A field is read if its value is. -/
lemma bind_eq_of_field {α : Type} {field : Option Json} {v : Json} {read? : Json → Option α} {a : α}
    (hfield : field = some v) (hv : read? v = some a) : field.bind read? = some a :=
  Option.bind_eq_some_iff.2 ⟨v, hfield, hv⟩

/-- Items that are read back one by one are read back as a list. -/
lemma list?_map {α : Type} {item? : Json → Option α} {f : α → Json} {as : List α}
    (h : ∀ a ∈ as, item? (f a) = some a) : list? item? (.arr (as.map f)) = some as := by
  rw [list?]
  induction as with
  | nil => rfl
  | cons a as ih =>
    have hrest := ih fun b hb => h b (List.mem_cons_of_mem a hb)
    simp [h a List.mem_cons_self, hrest]

/-- Fields that have different names can all be read. -/
lemma bind_once?_obj {fields : List (String × Json)} (h : (fields.map Prod.fst).Nodup)
    (names : List String) :
    (once? names (.obj fields)).bind object? = some fun name => (obj fields).field? name := by
  have hcount (name : String) : ¬ 1 < fields.countP fun f => f.1 == name := by
    have hone := List.nodup_iff_count.1 h name
    rw [List.count, List.countP_map] at hone
    exact Nat.not_lt.2 hone
  simp [once?, object?, hcount]

/-- A name of the record may not occur twice, another one may. -/
example : (once? ["a"] (.obj [("a", .null), ("a", .null)])).isNone ∧
    (once? ["a"] (.obj [("b", .null), ("b", .null)])).isSome := by decide

/-- A text that is left out if there is none is read back. -/
lemma fieldOr_text (s : Option String) :
    fieldOr none (nullable? text?) (s.map Json.str) = some s := by
  cases s <;> rfl

/-- Texts that are left out if there are none are read back. -/
lemma fieldOr_texts (texts : List String) :
    fieldOr [] (list? text?) (if texts.isEmpty then none else some (.ofTexts texts)) =
      some texts := by
  cases texts with
  | nil => rfl
  | cons s texts => exact list?_map fun _ _ => rfl

end Json

/-- The fields of a span are read back, whatever other fields stand beside them. -/
lemma Span.ofFields?_eq {s : Span} (h : s.InRange) {get : String → Option Json}
    (hline : get "line" = some (.ofNat s.first.line))
    (hcolumn : get "column" = some (.ofNat s.first.column))
    (hendLine : get "end_line" = some (.ofNat s.last.line))
    (hendColumn : get "end_column" = some (.ofNat s.last.column)) :
    Span.ofFields? get = some s := by
  rw [ofFields?, bind_eq_of_field hline (nat?_ofNat 32 h.firstLine),
    bind_eq_of_field hcolumn (nat?_ofNat 32 h.firstColumn),
    bind_eq_of_field hendLine (nat?_ofNat 32 h.lastLine),
    bind_eq_of_field hendColumn (nat?_ofNat 32 h.lastColumn)]
  rfl

/-- What stands in the fields of a written diagnostic. -/
lemma Diagnostic.exists_fields (d : Diagnostic) : ∃ get,
    (once? ["file", "code", "message", "line", "column", "end_line", "end_column", "source_line",
      "suggestion"] d.toJson).bind object? = some get ∧
    get "file" = some (.str d.file) ∧ get "code" = some (.ofNat d.code) ∧
    get "message" = some (.str d.message) ∧ get "line" = some (.ofNat d.span.first.line) ∧
    get "column" = some (.ofNat d.span.first.column) ∧
    get "end_line" = some (.ofNat d.span.last.line) ∧
    get "end_column" = some (.ofNat d.span.last.column) ∧
    get "source_line" = some (.str d.sourceLine) ∧ get "suggestion" = d.suggestion.map .str := by
  obtain ⟨file, code, message, span, sourceLine, suggestion⟩ := d
  refine ⟨_, bind_once?_obj ?_ _, ?_⟩
  · cases suggestion <;> simp [Span.fields]
  · cases suggestion <;> simp [Span.fields, field?]

/-- A diagnostic is read back. -/
lemma Diagnostic.ofJson?_toJson {d : Diagnostic} (h : d.InRange) :
    Diagnostic.ofJson? d.toJson = some d := by
  obtain ⟨get, hget, hfile, hcode, hmessage, hline, hcolumn, hendLine, hendColumn, hsource,
    hsuggestion⟩ := d.exists_fields
  have hspan := Span.ofFields?_eq h.span hline hcolumn hendLine hendColumn
  have hcode' := bind_eq_of_field hcode (nat?_ofNat 16 h.code)
  rw [ofJson?, hget]
  simp only [Option.bind_eq_bind, Option.bind_some, hfile, hcode', hmessage, hspan, hsource,
    hsuggestion, fieldOr_text, text?]
  rfl

/-- A list of diagnostics is read back. -/
lemma ErrorList.ofJson?_toJson {ds : Diagnostics} (h : ∀ d ∈ ds.kept, d.InRange)
    (htotal : ds.total < UInt64.size) : ErrorList.ofJson? ds.toJson = some ds := by
  have hkept := list?_map fun d hd => Diagnostic.ofJson?_toJson (h d hd)
  obtain ⟨get, hget, herrors, hcount⟩ : ∃ get,
      record? ["errors", "total_errors"] ds.toJson = some get ∧
      get "errors" = some (.arr (ds.kept.map Diagnostic.toJson)) ∧
      get "total_errors" = some (.ofNat ds.total) :=
    ⟨_, rfl, by simp [field?], by simp [field?]⟩
  have herrors' := bind_eq_of_field herrors hkept
  have hcount' := bind_eq_of_field hcount (nat?_ofNat 64 htotal)
  rw [ofJson?, hget]
  simp only [Option.bind_eq_bind, Option.bind_some, herrors', hcount']
  rfl

/-- Less than a second of nanoseconds adds no seconds. -/
lemma Duration.make?_eq {d : Duration} (h : d.InRange) : Duration.make? d.secs d.nanos = some d := by
  have hsecs : d.secs + d.nanos / 1000000000 = d.secs := by
    rw [Nat.div_eq_of_lt h.nanos, Nat.add_zero]
  have hnanos : d.nanos % 1000000000 = d.nanos := Nat.mod_eq_of_lt h.nanos
  have hrange : d.secs < twoTo 64 := h.secs
  simp only [make?, hsecs, hnanos, hrange, if_true]

/-- A span of time is read back. -/
lemma Duration.ofJson?_toJson {d : Duration} (h : d.InRange) :
    Duration.ofJson? d.toJson = some d := by
  have hnanos : d.nanos < UInt32.size := Nat.lt_trans h.nanos (by decide)
  obtain ⟨get, hget, hsecs, hnano⟩ : ∃ get,
      record? ["secs", "nanos"] d.toJson = some get ∧
      get "secs" = some (.ofNat d.secs) ∧ get "nanos" = some (.ofNat d.nanos) :=
    ⟨_, rfl, by simp [field?], by simp [field?]⟩
  have hsecs' := bind_eq_of_field hsecs (nat?_ofNat 64 h.secs)
  have hnano' := bind_eq_of_field hnano (nat?_ofNat 32 hnanos)
  rw [ofJson?]
  simp only [hget, Option.bind_eq_bind, Option.bind_some, hsecs', hnano']
  simp [toJson, make?_eq h]

/-- A test result is read back. -/
lemma TestResult.ofJson?_toJson {r : TestResult} (h : r.duration.InRange) :
    TestResult.ofJson? r.toJson = some r := by
  obtain ⟨get, hget, hname, hpassed, herror, houtput, hduration⟩ : ∃ get,
      record? ["name", "passed", "error", "output", "duration"] r.toJson = some get ∧
      get "name" = some (.str r.name) ∧ get "passed" = some (.bool r.passed) ∧
      get "error" = r.error.map .str ∧
      get "output" = (if r.output.isEmpty then none else some (.ofTexts r.output)) ∧
      get "duration" = some r.duration.toJson := by
    obtain ⟨name, passed, error, output, duration⟩ := r
    refine ⟨_, bind_once?_obj ?_ _, ?_⟩
    · cases error <;> cases output <;> simp [outputField]
    · cases error <;> cases output <;> simp [outputField, field?]
  have hduration' := bind_eq_of_field hduration (Duration.ofJson?_toJson h)
  rw [ofJson?, hget]
  simp only [Option.bind_eq_bind, Option.bind_some, hname, hpassed, herror, houtput, hduration',
    text?, bool?, fieldOr_text, fieldOr_texts]
  rfl

/-- A summary is read back. Diagnostics that are not counted are not written either. -/
lemma Summary.ofJson?_toJson {s : Summary} (h : s.InRange)
    (hnone : s.diagnostics.total = 0 → s.diagnostics.kept = []) :
    Summary.ofJson? s.toJson = some s := by
  have hresults := list?_map fun r hr => TestResult.ofJson?_toJson (h.results r hr)
  obtain ⟨get, hget, hfile, hlist, hpassed, hfailed, hduration, hdiagnostics, houtput⟩ : ∃ get,
      record? ["file", "results", "passed", "failed", "duration", "syntax_errors", "output"]
        s.toJson = some get ∧
      get "file" = some (.str s.file) ∧
      get "results" = some (.arr (s.results.map TestResult.toJson)) ∧
      get "passed" = some (.ofNat s.passed) ∧ get "failed" = some (.ofNat s.failed) ∧
      get "duration" = some s.duration.toJson ∧
      get "syntax_errors" =
        (if s.diagnostics.hasErrors then some s.diagnostics.toJson else none) ∧
      get "output" = (if s.output.isEmpty then none else some (.ofTexts s.output)) := by
    obtain ⟨file, results, passed, failed, duration, diagnostics, output⟩ := s
    refine ⟨_, bind_once?_obj ?_ _, ?_⟩
    · cases diagnostics.hasErrors <;> cases output <;> simp [outputField]
    · cases diagnostics.hasErrors <;> cases output <;> simp [outputField, field?]
  have herrors : fieldOr .empty ErrorList.ofJson?
      (if s.diagnostics.hasErrors then some s.diagnostics.toJson else none) =
        some s.diagnostics := by
    cases hcounted : s.diagnostics.hasErrors with
    | true => exact ErrorList.ofJson?_toJson h.errors h.total
    | false =>
      have htotal : s.diagnostics.total = 0 := Nat.eq_zero_of_not_pos (of_decide_eq_false hcounted)
      have hempty : s.diagnostics = .empty := by
        rw [ErrorList.empty, ← hnone htotal, ← htotal]
      rw [hempty]
      rfl
  have hlist' := bind_eq_of_field hlist hresults
  have hpassed' := bind_eq_of_field hpassed (nat?_ofNat 64 h.passed)
  have hfailed' := bind_eq_of_field hfailed (nat?_ofNat 64 h.failed)
  have hduration' := bind_eq_of_field hduration (Duration.ofJson?_toJson h.duration)
  rw [ofJson?, hget]
  simp only [Option.bind_eq_bind, Option.bind_some, hfile, hlist', hpassed', hfailed', hduration',
    hdiagnostics, herrors, houtput, text?, fieldOr_texts]
  rfl

/-! ### Numbers of reports -/

namespace Json

/-- Fields beside fields. -/
@[simp] lemma haveWhole_append (fields fields' : List (String × Json)) :
    haveWhole (fields ++ fields') = (haveWhole fields && haveWhole fields') := by
  induction fields with
  | nil => simp [haveWhole]
  | cons field fields ih => simp [haveWhole, ih, Bool.and_assoc]

/-- Items that are written one by one. -/
lemma areWhole_map {α : Type} {f : α → Json} (hf : ∀ a, (f a).isWhole) (as : List α) :
    areWhole (as.map f) := by
  induction as with
  | nil => simp [areWhole]
  | cons a as ih => simp [areWhole, hf a, ih]

end Json

/-- The only numbers of a diagnostic are integers. -/
lemma Diagnostic.isWhole_toJson (d : Diagnostic) : d.toJson.isWhole := by
  cases hs : d.suggestion <;>
    simp [toJson, hs, Span.fields, Json.ofNat, isWhole, haveWhole]

/-- The only numbers of a list of diagnostics are integers. -/
lemma ErrorList.isWhole_toJson (ds : Diagnostics) : ds.toJson.isWhole := by
  simp [toJson, Json.ofNat, isWhole, haveWhole, areWhole_map Diagnostic.isWhole_toJson]

/-- The only numbers of a span of time are integers. -/
lemma Duration.isWhole_toJson (d : Duration) : d.toJson.isWhole := by
  simp [toJson, Json.ofNat, isWhole, haveWhole]

/-- There are no numbers in printed lines. -/
lemma haveWhole_outputField (output : List String) : haveWhole (outputField output) := by
  have htexts : (Json.ofTexts output).isWhole := by
    rw [Json.ofTexts, isWhole]
    exact areWhole_map (fun s => by rw [isWhole]) output
  rw [outputField]
  split
  · rw [haveWhole]
  · simp [haveWhole, htexts]

/-- The only numbers of a test result are integers. -/
lemma TestResult.isWhole_toJson (r : TestResult) : r.toJson.isWhole := by
  cases he : r.error <;>
    simp [toJson, he, isWhole, haveWhole, haveWhole_outputField, Duration.isWhole_toJson]

/-- The only numbers of a summary are integers. -/
lemma Summary.isWhole_toJson (s : Summary) : s.toJson.isWhole := by
  cases he : s.diagnostics.hasErrors <;>
    simp [toJson, he, Json.ofNat, isWhole, haveWhole, haveWhole_outputField,
      Duration.isWhole_toJson, ErrorList.isWhole_toJson, areWhole_map TestResult.isWhole_toJson]

/-! ### Reports -/

/-- A report is read back from its text as it was, if its numbers are in range and no diagnostic
is kept without being counted. -/
theorem Summary.parse?_pretty_toJson {s : Summary} (h : s.InRange)
    (hnone : s.diagnostics.total = 0 → s.diagnostics.kept = []) :
    (Json.parse? s.toJson.pretty).bind Summary.ofJson? = some s := by
  rw [Json.parse?_pretty s.isWhole_toJson]
  exact Summary.ofJson?_toJson h hnone

/-- A report that holds quotes, control characters and characters outside the basic plane, one
test with all its fields and one without those that may be missing, and the greatest numbers. -/
theorem Summary.parse?_pretty_toJson_escaped :
    let d : Diagnostic := ⟨"a\"b.nr", 65535, "\\ \x01\x1f\n", ⟨⟨1, 4294967295⟩, ⟨4294967295, 1⟩⟩,
      "😀\t\r", some "\x08\x0c/"⟩
    let r : TestResult := ⟨"pima_a", false, some "é\"", ["", "\x7f"], ⟨0, 999999999⟩⟩
    let r' : TestResult := ⟨"pima_b", true, none, [], ⟨18446744073709551615, 0⟩⟩
    let s : Summary := ⟨"", [r, r'], 1, 18446744073709551615, .zero,
      ⟨[d, { d with suggestion := none }], 21⟩, []⟩
    s.InRange ∧ (s.diagnostics.total = 0 → s.diagnostics.kept = []) ∧
      (Json.parse? s.toJson.pretty).bind Summary.ofJson? = some s := by
  intro d r r' s
  have hspan : d.span.InRange := ⟨by decide, by decide, by decide, by decide⟩
  have hrange : s.InRange := by
    refine ⟨by decide, by decide, ⟨by decide, by decide⟩, ?_, ?_, by decide⟩
    · intro t ht
      rcases List.mem_pair.1 ht with rfl | rfl
      · exact ⟨by decide, by decide⟩
      · exact ⟨by decide, by decide⟩
    · intro e he
      rcases List.mem_pair.1 he with rfl | rfl
      · exact ⟨by decide, hspan⟩
      · exact ⟨by decide, hspan⟩
  have hnone : s.diagnostics.total = 0 → s.diagnostics.kept = [] := by
    intro htotal
    cases htotal
  exact ⟨hrange, hnone, Summary.parse?_pretty_toJson hrange hnone⟩

end Lugha
