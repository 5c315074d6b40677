import Lugha.Harness
import Lugha.Parser.Program
import Lugha.Proofs.Reporting

/-!
# What the test harness keeps apart

All tests of a program share one output and one log.  After each test the harness cuts the
output back to what it was before the first one, and before each test it empties the log.  The
reference is a plain run of the same calls, one after the other, in which nothing is cut back and
nothing is emptied.

The two runs have machines that differ in their printed lines and in the events of the attached
log only.  `Machine.Beside` says so, and that both have printed and recorded the same since some
earlier machines.  An evaluation neither reads a printed line nor an event, so it keeps two
machines beside each other.  The output and the log of the harness then hold what the plain run
has added during the same call.
-/

namespace Lugha

/-! ### Machines that differ in what was printed and recorded -/

/-- Two machines that differ at most in their printed lines and in the events of their logs, of
which the same one is attached. -/
structure Machine.Matched (log : Nat) (m m' : Machine) : Prop where
  frames : m'.frames = m.frames
  functions : m'.functions = m.functions
  depth : m'.depth = m.depth
  reporter : m.reporter = some log
  reporter' : m'.reporter = some log
  size : log < m.logs.size
  size' : log < m'.logs.size

/-- Two such machines that have printed and recorded the same since they were `m₀` and `m₀'`, and
recorded it in the attached log only. -/
structure Machine.Beside (log : Nat) (m₀ m₀' m m' : Machine) : Prop
    extends Machine.Matched log m m' where
  output : ∃ lines, m.output.toList = m₀.output.toList ++ lines ∧
    m'.output.toList = m₀'.output.toList ++ lines
  events : ∃ es, m.events log = m₀.events log ++ es ∧ m'.events log = m₀'.events log ++ es
  others : ∀ other, other ≠ log → m.events other = m₀.events other ∧
    m'.events other = m₀'.events other

namespace Machine

variable {log : Nat} {m₀ m₀' m m' : Machine}

/-- Two machines have printed and recorded nothing since they are what they are. -/
lemma Matched.beside (h : Matched log m m') : Beside log m m' m m' where
  toMatched := h
  output := ⟨[], by simp⟩
  events := ⟨[], by simp⟩
  others := fun _ _ => ⟨rfl, rfl⟩

namespace Beside

/-- Printing the same line on both machines. -/
lemma print (h : Beside log m₀ m₀' m m') (line : String) :
    Beside log m₀ m₀' (m.print line) (m'.print line) where
  toMatched := ⟨h.frames, h.functions, h.depth, h.reporter, h.reporter', h.size, h.size'⟩
  output := by
    obtain ⟨lines, hlines, hlines'⟩ := h.output
    refine ⟨lines ++ [line], ?_, ?_⟩
    · simp [Machine.print, hlines]
    · simp [Machine.print, hlines']
  events := h.events
  others := h.others

/-- Recording the same event on both machines. -/
lemma record (h : Beside log m₀ m₀' m m') (e : Event) :
    Beside log m₀ m₀' (m.record log e) (m'.record log e) where
  toMatched := by
    refine ⟨h.frames, h.functions, h.depth, h.reporter, h.reporter', ?_, ?_⟩
    · simpa [Machine.record] using h.size
    · simpa [Machine.record] using h.size'
  output := h.output
  events := by
    obtain ⟨es, hes, hes'⟩ := h.events
    refine ⟨es ++ [e], ?_, ?_⟩
    · rw [events_record, if_pos ⟨rfl, h.size⟩, hes, List.append_assoc]
    · rw [events_record, if_pos ⟨rfl, h.size'⟩, hes', List.append_assoc]
  others := by
    intro other hother
    have hnot (n : Machine) : ¬ (log = other ∧ log < n.logs.size) := fun hn => hother hn.1.symm
    rw [events_record, events_record, if_neg (hnot m), if_neg (hnot m'), List.append_nil,
      List.append_nil]
    exact h.others other hother

/-- Binding a name on both machines. -/
lemma put (h : Beside log m₀ m₀' m m') (i : Nat) (name : String) (v : Value) :
    Beside log m₀ m₀' (m.put i name v) (m'.put i name v) :=
  { h with frames := congrArg (·.modify i (Bindings.insert name v)) h.frames }

/-- Making a scope on both machines. -/
lemma enclose (h : Beside log m₀ m₀' m m') (s : Scope) :
    (m'.enclose s).1 = (m.enclose s).1 ∧
      Beside log m₀ m₀' (m.enclose s).2 (m'.enclose s).2 := by
  constructor
  · simp [Machine.enclose, h.frames]
  · exact { h with frames := congrArg (·.push []) h.frames }

/-- Assertions are recorded on both machines. -/
lemma assert_matches (args : List Value) :
    (Simulation.ofMachines (Beside log m₀ m₀') fun _ _ _ => False).Matches Eq
      (Builtin.assert args) (Builtin.assert args) := by
  intro m m' hm
  cases args with
  | nil => exact .error hm
  | cons condition args =>
    simp only [Builtin.assert, hm.reporter, hm.reporter']
    exact .ok rfl (hm.record _)

/-- Builtins do the same on both machines. -/
lemma builtin_matches (b : Builtin) (args : List Value) :
    (Simulation.ofMachines (Beside log m₀ m₀') fun _ _ _ => False).Matches Eq
      (b.apply args) (b.apply args) := by
  intro m m' hm
  cases b with
  | hakiki => exact assert_matches args hm
  | andika => exact .ok rfl (hm.print _)
  | aina =>
    unfold Builtin.apply
    dsimp only
    split
    · exact .ok rfl hm
    · exact .error hm

/-- No step of an evaluation reads what was printed or recorded. -/
lemma laws (log : Nat) (m₀ m₀' : Machine) :
    Simulation.MachineLaws (Beside log m₀ m₀') fun _ _ _ => False where
  resolve := by
    intro s name m m' hm
    have hget : m'.get? s name = m.get? s name :=
      Machine.find?_congr hm.frames name s.chain
    unfold Scope.resolve
    rw [hget]
    split
    · exact .ok rfl hm
    · split
      · exact .ok rfl hm
      · exact .error hm
  makeFunction := by
    intro s name params body m m' hm
    unfold Scope.makeFunction
    rw [hm.functions]
    exact .ok rfl { hm with functions := rfl }
  set := fun s name v hm => hm.put s.frame name v
  assign := by
    intro s name v m m' hm
    have howner : m'.owner? name s.chain = m.owner? name s.chain :=
      Machine.owner?_congr hm.frames name s.chain
    unfold Scope.assign Machine.assign
    rw [howner]
    cases m.owner? name s.chain with
    | none => exact .error hm
    | some i => exact .ok rfl (hm.put i name v)
  builtin := builtin_matches
  enclose := fun s hm => hm.enclose s
  depth := fun f hm => { hm with depth := congrArg f hm.depth }
  cut_leave := False.elim
  cut_grows := fun h _ => h

/-- Runs on machines beside each other go on in step to their ends. -/
lemma steady (log : Nat) (m₀ m₀' : Machine) :
    (Simulation.ofMachines (Beside log m₀ m₀') fun _ _ _ => False).Steady where
  toLawful := (laws log m₀ m₀').lawful
  error := fun _ => rfl
  depth := fun hm => hm.depth
  uncut := False.elim

/-- Running an expression. -/
lemma runExpr (h : Beside log m₀ m₀' m m') (l : Limits) (s : Scope) (e : Expr) :
    (e.run l s m).1 = (e.run l s m').1 ∧
      Beside log m₀ m₀' (e.run l s m).2 (e.run l s m').2 :=
  Expr.run_matches (steady log m₀ m₀') l (rfl : s = s) (e.like_refl fun _ => rfl) h

/-- Running a statement. -/
lemma runStmt (h : Beside log m₀ m₀' m m') (l : Limits) (s : Scope) (stmt : Stmt) :
    (stmt.run l s m).1 = (stmt.run l s m').1 ∧
      Beside log m₀ m₀' (stmt.run l s m).2 (stmt.run l s m').2 :=
  Stmt.run_matches (steady log m₀ m₀') l (rfl : s = s) (stmt.like_refl fun _ => rfl) h

/-- Running a program. -/
lemma runProgram (h : Beside log m₀ m₀' m m') (l : Limits) (s : Scope) (p : Program) :
    (p.run l s m).1 = (p.run l s m').1 ∧
      Beside log m₀ m₀' (p.run l s m).2 (p.run l s m').2 :=
  Program.run_matches (steady log m₀ m₀') l (rfl : s = s)
    (Stmt.likeList_refl (fun _ => rfl) p.stmts) h

end Beside

/-- The harness may cut lines off and empty logs. -/
lemma Matched.congr (h : Matched log m m') {n : Machine} (hframes : n.frames = m'.frames)
    (hfunctions : n.functions = m'.functions) (hdepth : n.depth = m'.depth)
    (hreporter : n.reporter = m'.reporter) (hsize : n.logs.size = m'.logs.size) :
    Matched log m n where
  frames := hframes.trans h.frames
  functions := hfunctions.trans h.functions
  depth := hdepth.trans h.depth
  reporter := h.reporter
  reporter' := hreporter.trans h.reporter'
  size := h.size
  size' := hsize ▸ h.size'

/-- An emptied log has no events, and the other logs keep theirs. -/
lemma events_clearLog (m : Machine) (log other : Nat) :
    (m.clearLog log).events other = if other = log then [] else m.events other := by
  unfold events clearLog
  by_cases hsize : other < m.logs.size
  · by_cases hother : other = log
    · simp [Array.getD, hother, Array.getElem_modify]
    · simp [Array.getD, hsize, hother, Array.getElem_modify, Ne.symm hother]
  · simp [Array.getD, hsize]

/-- Lines that were printed after a mark are split off at the mark. -/
lemma splitOutput_of_append {lines : List String} (h : m'.output.toList = m.output.toList ++ lines) :
    (m'.splitOutput m.output.size).1 = lines ∧
      (m'.splitOutput m.output.size).2.output = m.output := by
  have houtput : m'.output = m.output ++ lines.toArray := by
    apply Array.toList_inj.1
    simpa using h
  constructor
  · simp [splitOutput, houtput]
  · simp [splitOutput, houtput]

/-- A new log has no events, and the other logs keep theirs. -/
lemma events_newLog (m : Machine) (other : Nat) : m.newLog.2.events other = m.events other := by
  unfold events newLog
  by_cases hsize : other < m.logs.size
  · simp [Array.getD, hsize, Array.getElem_push, Nat.lt_succ_of_lt hsize]
  · by_cases hnew : other < m.logs.size + 1
    · have hlast : other = m.logs.size := by omega
      simp [Array.getD, hlast]
    · simp [Array.getD, hsize, hnew]

end Machine

/-! ### The last failure -/

/-- The last event of a list that did not pass. -/
def Event.IsLastFailure (es : List Event) (e : Event) : Prop :=
  ∃ earlier later, es = earlier ++ e :: later ∧ e.passed = false ∧
    ∀ e ∈ later, e.passed = true

/-- A failure after which all events passed is found first from the end. -/
lemma Event.IsLastFailure.find? {es : List Event} {e : Event} (h : IsLastFailure es e) :
    (es.reverse.find? fun e => !e.passed) = some e := by
  obtain ⟨earlier, later, rfl, hfailed, hlater⟩ := h
  have hnone : (later.reverse.find? fun e => !e.passed) = none := by
    rw [List.find?_eq_none]
    intro e he
    simp [hlater e (List.mem_reverse.1 he)]
  simp [List.find?_append, hnone, hfailed]

/-- There is no last failure exactly if all events passed. -/
lemma Event.find?_reverse_eq_none {es : List Event} :
    (es.reverse.find? fun e => !e.passed) = none ↔ ∀ e ∈ es, e.passed = true := by
  simp

/-! ### Calls of tests -/

/-- A call of a test in a plain run: the machine before it, its value and the machine after it. -/
structure TestCall where
  name : String
  before : Machine
  value : Value
  after : Machine

namespace TestCall

/-- Calls a test. -/
def ofName (l : Limits) (s : Scope) (name : String) (m : Machine) : TestCall :=
  let (v, m') := (Expr.callByName name).run l s m
  ⟨name, m, v, m'⟩

/-- Calls tests one after the other, and takes nothing from the machine between them. -/
def each (l : Limits) (s : Scope) : List String → Machine → List TestCall × Machine
  | [], m => ([], m)
  | name :: names, m =>
    let call := ofName l s name m
    let (calls, m) := each l s names call.after
    (call :: calls, m)

/-- What a test result says of a call whose assertions went to a log. -/
structure Reported (log : Nat) (c : TestCall) (r : TestResult) : Prop where
  name : r.name = c.name
  /-- the output is exactly what the call printed -/
  output : c.after.output.toList = c.before.output.toList ++ r.output
  /-- the verdict rests on exactly the events of the call -/
  verdict : ∃ es, c.after.events log = c.before.events log ++ es ∧
    (r.passed = true ↔ (∀ e ∈ es, e.passed = true) ∧ c.value.isError = false) ∧
    (r.passed = true → r.error = none) ∧
    (∀ e, Event.IsLastFailure es e → r.error = some e.message) ∧
    (∀ cause, (∀ e ∈ es, e.passed = true) → c.value = .error cause → r.error = some cause.message)

/-- Calling tests lets the machine grow. -/
lemma grows_each (l : Limits) (s : Scope) (names : List String) (m : Machine) :
    m.Grows (each l s names m).2 := by
  induction names generalizing m with
  | nil => exact .refl m
  | cons name names ih => exact ((Expr.callByName name).grows_run l s m).trans (ih _)

end TestCall

/-- Why a test failed, from the message of its last failed assertion and its value. -/
def failureReason? (message : Option String) (v : Value) : Option String :=
  match message, v with
  | some message, _ => some message
  | none, .error e => some e.message
  | none, _ => none

/-- The reason is the message of the last failed assertion, or the error if none failed. -/
lemma failureReason?_spec (es : List Event) (v : Value) :
    let reason := failureReason? ((es.reverse.find? fun e => !e.passed).map (·.message)) v
    (reason.isNone = true ↔ (∀ e ∈ es, e.passed = true) ∧ v.isError = false) ∧
      (∀ e, Event.IsLastFailure es e → reason = some e.message) ∧
      (∀ e, (∀ e ∈ es, e.passed = true) → v = .error e → reason = some e.message) := by
  intro reason
  refine ⟨?_, ?_, ?_⟩
  · by_cases hpassed : ∀ e ∈ es, e.passed = true
    · have hreason : reason = failureReason? none v := by
        simp only [reason, Event.find?_reverse_eq_none.2 hpassed, Option.map_none]
      rw [hreason, and_iff_right hpassed]
      cases v <;> simp [failureReason?, Value.isError]
    · obtain ⟨e, he⟩ := Option.ne_none_iff_exists'.1 (mt Event.find?_reverse_eq_none.1 hpassed)
      have hreason : reason = some e.message := by
        simp only [reason, he, Option.map_some, failureReason?]
      rw [hreason]
      simp [hpassed]
  · intro e he
    simp only [reason, he.find?, Option.map_some, failureReason?]
  · rintro e hpassed rfl
    simp only [reason, Event.find?_reverse_eq_none.2 hpassed, Option.map_none, failureReason?]

namespace Program

/-- A test is a call on a machine with an emptied log, after which the lines past the mark are
taken. -/
lemma runTest_eq (l : Limits) (s : Scope) (log mark : Nat) (name : String) (m : Machine) :
    let call := (Expr.callByName name).run l s (m.clearLog log)
    let reason := failureReason? (call.2.lastFailure? log) call.1
    runTest l s log mark name m =
      (⟨name, reason.isNone, reason, (call.2.splitOutput mark).1, .zero⟩,
        (call.2.splitOutput mark).2) := rfl

/-- The tests are called after the functions and the program were run with a new log. -/
lemma runTests_eq (l : Limits) (s : Scope) (p : Program) (m : Machine) :
    let top := (p.run l s (p.hoist l s { m.newLog.2 with reporter := some m.newLog.1 })).2
    let tests := runEach l s m.newLog.1 top.output.size p.tests top
    p.runTests l s m = (tests.1, { tests.2 with reporter := m.reporter }) := rfl

/-- A test that is run beside the plain call reports that call. The harness is left with the
output it had, and with the other logs as they were. -/
lemma runTest_reported (l : Limits) (s : Scope) {log : Nat} (name : String) {m m' : Machine}
    (h : Machine.Matched log m m') :
    let call := TestCall.ofName l s name m
    let test := runTest l s log m'.output.size name m'
    call.Reported log test.1 ∧ Machine.Matched log call.after test.2 ∧
      test.2.output = m'.output ∧ ∀ other, other ≠ log → test.2.events other = m'.events other := by
  intro call test
  have hclear : Machine.Matched log m (m'.clearLog log) :=
    h.congr rfl rfl rfl rfl (by simp [Machine.clearLog])
  obtain ⟨hvalue, hbeside⟩ := hclear.beside.runExpr l s (Expr.callByName name)
  obtain ⟨lines, hlines, hlines'⟩ := hbeside.output
  obtain ⟨es, hes, hes'⟩ := hbeside.events
  rw [Machine.events_clearLog, if_pos rfl, List.nil_append] at hes'
  have htest : test = _ := runTest_eq l s log m'.output.size name m'
  have hsplit := Machine.splitOutput_of_append (m := m'.clearLog log) hlines'
  refine ⟨⟨?_, ?_, es, hes, ?_⟩, ?_, ?_, ?_⟩
  · rw [htest]
    rfl
  · rw [htest]
    exact hlines.trans (congrArg (m.output.toList ++ ·) hsplit.1.symm)
  · obtain ⟨hpassed, hfailure, herror⟩ := failureReason?_spec es call.value
    have hreason : test.1.error =
        failureReason? ((es.reverse.find? fun e => !e.passed).map (·.message)) call.value := by
      rw [htest]
      simp only [Machine.lastFailure?, hes', ← hvalue]
      rfl
    have hnone : test.1.passed = test.1.error.isNone := by rw [htest]
    rw [hnone, hreason]
    exact ⟨hpassed, Option.isNone_iff_eq_none.1, hfailure, herror⟩
  · rw [htest]
    exact hbeside.toMatched.congr rfl rfl rfl rfl rfl
  · rw [htest]
    exact hsplit.2
  · intro other hother
    rw [htest]
    have hkept := (hbeside.others other hother).2
    rw [Machine.events_clearLog, if_neg hother] at hkept
    exact hkept

/-- Tests that are run beside plain calls report those calls one by one. What the plain calls have
printed is what the harness had printed at first and then the outputs of the results. -/
lemma runEach_reported (l : Limits) (s : Scope) {log : Nat} (names : List String)
    {m m' : Machine} (h : Machine.Matched log m m') :
    let plain := TestCall.each l s names m
    let tests := runEach l s log m'.output.size names m'
    List.Forall₂ (TestCall.Reported log) plain.1 tests.1 ∧ tests.1.map (·.name) = names ∧
      plain.2.output.toList = m.output.toList ++ tests.1.flatMap (·.output) ∧
      Machine.Matched log plain.2 tests.2 ∧ tests.2.output = m'.output ∧
      ∀ other, other ≠ log → tests.2.events other = m'.events other := by
  induction names generalizing m m' with
  | nil => exact ⟨.nil, rfl, (List.append_nil _).symm, h, rfl, fun _ _ => rfl⟩
  | cons name names ih =>
    intro plain tests
    obtain ⟨hreport, hmatched, houtput, hothers⟩ := runTest_reported l s name h
    obtain ⟨hreports, hnames, hlines, hend, houtputs, hkept⟩ := ih hmatched
    have htests : tests =
        ((runTest l s log m'.output.size name m').1 ::
          (runEach l s log m'.output.size names (runTest l s log m'.output.size name m').2).1,
          (runEach l s log m'.output.size names (runTest l s log m'.output.size name m').2).2) := rfl
    rw [houtput] at hreports hnames hlines hend houtputs hkept
    rw [htests]
    refine ⟨.cons hreport hreports, ?_, ?_, hend, houtputs, ?_⟩
    · rw [List.map_cons, hnames, hreport.name]
      rfl
    · rw [List.flatMap_cons, ← List.append_assoc]
      exact hlines.trans (congrArg (· ++ _) hreport.output)
    · intro other hother
      rw [hkept other hother, hothers other hother]

/-- Hoisting lets the machine grow. -/
lemma grows_hoist (l : Limits) (s : Scope) (p : Program) (m : Machine) :
    m.Grows (p.hoist l s m) := by
  refine List.foldlRecOn (motive := m.Grows) p.stmts _ (.refl m) ?_
  intro m' hm stmt _
  split
  · exact hm.trans (stmt.grows_run l s m')
  · exact hm

/-- Hoisting records nothing in the logs that are not attached. -/
lemma beside_hoist (l : Limits) (s : Scope) (p : Program) {log : Nat} {m₀ m : Machine}
    (h : Machine.Beside log m₀ m₀ m m) :
    Machine.Beside log m₀ m₀ (p.hoist l s m) (p.hoist l s m) := by
  refine List.foldlRecOn (motive := fun m => Machine.Beside log m₀ m₀ m m) p.stmts _ h ?_
  intro m hm stmt _
  split
  · exact (hm.runStmt l s stmt).2
  · exact hm

/-- The harness gives each test the lines and the assertions of its own call.

The reference attaches a new log, runs the functions and the program as the harness does, and then
calls the tests one after the other. There is one result for each test, in order; its output is what
its call printed, it passed if no assertion of its call failed and the call gave no error, and else
it tells the last failed assertion or the error. Afterwards the machine has the output that it had
before with what was printed outside of tests, the log that was attached before is attached again, no
log that was there has changed, and as many calls are under way. The lines that the reference has
printed are those of the machine and of the results, each once and in order. -/
theorem runTests_reported (l : Limits) (s : Scope) (p : Program) (m : Machine) :
    let log := m.newLog.1
    let top := (p.run l s (p.hoist l s { m.newLog.2 with reporter := some log })).2
    let calls := TestCall.each l s p.tests top
    let tests := p.runTests l s m
    List.Forall₂ (TestCall.Reported log) calls.1 tests.1 ∧
    tests.1.map (·.name) = p.tests ∧
    (∃ lines, top.output.toList = m.output.toList ++ lines ∧
      tests.2.output.toList = m.output.toList ++ lines) ∧
    tests.2.reporter = m.reporter ∧
    (∀ other < m.logs.size, tests.2.events other = m.events other) ∧
    tests.2.depth = m.depth ∧
    calls.2.output.toList = tests.2.output.toList ++ tests.1.flatMap (·.output) := by
  intro log top calls tests
  let start : Machine := { m.newLog.2 with reporter := some log }
  have hsize : log < start.logs.size := by simp [start, log, Machine.newLog]
  have hstart : Machine.Matched log start start := ⟨rfl, rfl, rfl, rfl, rfl, hsize, hsize⟩
  have htop : Machine.Beside log start start top top :=
    ((beside_hoist l s p hstart.beside).runProgram l s p).2
  obtain ⟨hreports, hnames, hlines, hend, houtput, hothers⟩ :=
    runEach_reported l s p.tests htop.toMatched
  have htests : tests = _ := runTests_eq l s p m
  rw [htests]
  refine ⟨hreports, hnames, ?_, rfl, ?_, ?_, ?_⟩
  · obtain ⟨lines, hadded, -⟩ := htop.output
    exact ⟨lines, hadded, (congrArg Array.toList houtput).trans hadded⟩
  · intro other hother
    have hne : other ≠ log := Nat.ne_of_lt hother
    have hkept := (htop.others other hne).1
    exact (hothers other hne).trans (hkept.trans (m.events_newLog other))
  · have hbegin : top.depth = m.depth :=
      ((p.grows_hoist l s start).trans (p.grows_run l s _)).depth
    exact hend.depth.trans ((TestCall.grows_each l s p.tests top).depth.trans hbegin)
  · exact hlines.trans (congrArg (·.toList ++ _) houtput.symm)

/-- A test that passes and one that fails. Both print lines, and so does the program itself. -/
example :
    let src : Source := ⟨"", "kazi pima_a() \x7b andika('a'); hakiki(kweli, 'sawa'); \x7d
      andika('juu');
      kazi pima_b() \x7b andika('b'); hakiki(sikweli, 'si b'); andika('c'); \x7d"⟩
    let tests := src.parse.program.runTests {} ({} : Machine).newTop.1 ({} : Machine).newTop.2
    tests.1 = [⟨"pima_a", true, none, ["a"], .zero⟩,
        ⟨"pima_b", false, some "si b", ["b", "c"], .zero⟩] ∧
      tests.2.output = #["juu"] := by
  decide +kernel

end Program

end Lugha
