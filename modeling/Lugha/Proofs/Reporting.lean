import Lugha.Proofs.Simulation

/-!
# Runs with and without a log

While a log is attached a failed assertion is recorded and the run goes on; without a log
it ends the run with its message.  Apart from that the log makes no difference.

The run without a log is compared with the run that reports to an empty log.  As long as
every recorded assertion has passed, the machines differ only in their logs.  At the first
failed assertion the run without a log breaks off, and what the other one does after that
can only add to its output and its log, so that the first failure stays the first.
-/

namespace Lugha

/-- The first failed assertion of a list. -/
def firstFailure? (events : List Event) : Option Event :=
  events.find? fun e => !e.passed

/-- If all assertions have passed, the next one that fails is the first. -/
lemma firstFailure?_append_of_passed {events : List Event} {e : Event}
    (hevents : ∀ e ∈ events, e.passed = true) (he : e.passed = false) :
    firstFailure? (events ++ [e]) = some e := by
  have hnone : events.find? (fun e => !e.passed) = none := by
    rw [List.find?_eq_none]
    intro e he
    simp [hevents e he]
  simp [firstFailure?, List.find?_append, hnone, he]

/-- The first failure stays the first when assertions are added. -/
lemma firstFailure?_of_prefix {events events' : List Event} {e : Event}
    (hmore : events <+: events') (h : firstFailure? events = some e) :
    firstFailure? events' = some e := by
  obtain ⟨added, rfl⟩ := hmore
  unfold firstFailure? at h ⊢
  rw [List.find?_append, h]
  rfl

/-- The first failure of a list is one of its events, and did not pass. -/
lemma mem_of_firstFailure? {events : List Event} {e : Event}
    (h : firstFailure? events = some e) : e ∈ events ∧ e.passed = false := by
  refine ⟨List.mem_of_find?_eq_some h, ?_⟩
  simpa using List.find?_some h

/-- What a name means depends on the frames only. -/
lemma Machine.find?_congr {m m' : Machine} (h : m'.frames = m.frames) (name : String) :
    ∀ chain : List Nat, m'.find? name chain = m.find? name chain
  | [] => rfl
  | i :: outer => by
    unfold Machine.find? Machine.frame
    rw [h, find?_congr h name outer]

/-- Where a name is bound depends on the frames only. -/
lemma Machine.owner?_congr {m m' : Machine} (h : m'.frames = m.frames) (name : String) :
    ∀ chain : List Nat, m'.owner? name chain = m.owner? name chain
  | [] => rfl
  | i :: outer => by
    unfold Machine.owner? Machine.frame
    rw [h, owner?_congr h name outer]

/-- The machine of a run without a log, and that of the same run with a log in which all
assertions have passed. -/
inductive Unreported (log : Nat) : Machine → Machine → Prop
  | mk {m : Machine} {logs : Array (Array Event)} (hreporter : m.reporter = none)
      (hlog : log < logs.size) (hpassed : ∀ e ∈ (logs.getD log #[]).toList, e.passed = true) :
      Unreported log m { m with logs := logs, reporter := some log }

/-- A run without a log has ended with the first failed assertion of the log of another
run, whose output continues its own. -/
structure EndedByFailure (log : Nat) (e : EvalError) (m m' : Machine) : Prop where
  failure : ∃ event, firstFailure? (m'.events log) = some event ∧ e = .custom event.message
  output : m.output.toList <+: m'.output.toList

namespace Unreported

variable {log : Nat}

/-- The names mean the same on both machines. -/
lemma frames_eq {m m' : Machine} (h : Unreported log m m') : m'.frames = m.frames := by
  cases h
  rfl

/-- Both runs have printed the same. -/
lemma output_eq {m m' : Machine} (h : Unreported log m m') : m'.output = m.output := by
  cases h
  rfl

/-- All assertions of the log have passed. -/
lemma passed {m m' : Machine} (h : Unreported log m m') {e : Event} (he : e ∈ m'.events log) :
    e.passed = true := by
  cases h with
  | mk hreporter hlog hpassed => exact hpassed e he

/-- The machines stay alike when the event of an assertion that has passed is recorded. -/
lemma record {m m' : Machine} (h : Unreported log m m') {e : Event} (he : e.passed = true) :
    Unreported log m (m'.record log e) := by
  cases h with
  | @mk logs hreporter hlog hpassed =>
  refine ⟨hreporter, by simpa using hlog, fun e' he' => ?_⟩
  have hevents := ({ m with logs := logs } : Machine).events_record log log e
  rw [if_pos ⟨rfl, hlog⟩] at hevents
  replace he' : e' ∈ (logs.getD log #[]).toList ++ [e] := hevents ▸ he'
  rcases List.mem_append.1 he' with hold | hnew
  · exact hpassed e' hold
  · rw [List.mem_singleton.1 hnew]
    exact he

/-- A failed assertion ends the run without a log, and is the first failure of the other. -/
lemma endedByFailure {m m' : Machine} (h : Unreported log m m') {e : Event}
    (he : e.passed = false) :
    EndedByFailure log (.custom e.message) m (m'.record log e) := by
  cases h with
  | @mk logs hreporter hlog hpassed =>
  refine ⟨⟨e, ?_, rfl⟩, List.prefix_rfl⟩
  rw [Machine.events_record, if_pos ⟨rfl, hlog⟩]
  exact firstFailure?_append_of_passed hpassed he

/-- Assertions match, up to the first one that fails. -/
lemma assert_matches (args : List Value) :
    (Simulation.ofMachines (Unreported log) (EndedByFailure log)).Matches Eq
      (Builtin.assert args) (Builtin.assert args) := by
  intro m m' hm
  have hreporter : m.reporter = none := by cases hm; assumption
  have hreporter' : m'.reporter = some log := by cases hm; rfl
  cases args with
  | nil => exact .error hm
  | cons condition args =>
    simp only [Builtin.assert, hreporter, hreporter']
    cases htruthy : condition.truthy with
    | true => exact .ok rfl (hm.record rfl)
    | false =>
      -- here the runs part: the one ends, the other has its first failure
      have hcut := hm.endedByFailure (e := ⟨false, assertionMessage (condition :: args)⟩) rfl
      exact .cut hcut

/-- Builtins match, up to the first assertion that fails. -/
lemma builtin_matches (b : Builtin) (args : List Value) :
    (Simulation.ofMachines (Unreported log) (EndedByFailure log)).Matches Eq
      (b.apply args) (b.apply args) := by
  intro m m' hm
  cases b with
  | hakiki => exact assert_matches args hm
  | andika =>
    cases hm with
    | mk hreporter hlog hpassed => exact .ok rfl ⟨hreporter, hlog, hpassed⟩
  | aina =>
    unfold Builtin.apply
    dsimp only
    split
    · exact .ok rfl hm
    · exact .error hm

/-- The machines stay alike at every step that is no assertion. -/
lemma laws : Simulation.MachineLaws (Unreported log) (EndedByFailure log) where
  resolve := by
    intro s name m m' hm
    have hget : m'.get? s name = m.get? s name :=
      Machine.find?_congr hm.frames_eq name s.chain
    unfold Scope.resolve
    rw [hget]
    split
    · exact .ok rfl hm
    · split
      · exact .ok rfl hm
      · exact .error hm
  makeFunction := by
    intro s name params body m m' hm
    cases hm with
    | mk hreporter hlog hpassed => exact .ok rfl ⟨hreporter, hlog, hpassed⟩
  set := by
    intro m m' s name v hm
    cases hm with
    | mk hreporter hlog hpassed => exact ⟨hreporter, hlog, hpassed⟩
  assign := by
    intro s name v m m' hm
    have howner := Machine.owner?_congr hm.frames_eq name s.chain
    unfold Scope.assign Machine.assign
    rw [howner]
    cases m.owner? name s.chain with
    | none => exact .error hm
    | some i =>
      cases hm with
      | mk hreporter hlog hpassed => exact .ok rfl ⟨hreporter, hlog, hpassed⟩
  builtin := builtin_matches
  enclose := by
    intro m m' s hm
    cases hm with
    | mk hreporter hlog hpassed => exact ⟨rfl, ⟨hreporter, hlog, hpassed⟩⟩
  depth := by
    intro m m' f hm
    cases hm with
    | mk hreporter hlog hpassed => exact ⟨hreporter, hlog, hpassed⟩
  cut_leave := fun h => ⟨h.failure, h.output⟩
  cut_grows := by
    intro e m m' m'' h hm
    obtain ⟨event, hevent, he⟩ := h.failure
    exact ⟨⟨event, firstFailure?_of_prefix (hm.events log) hevent, he⟩,
      h.output.trans hm.output⟩

end Unreported

/-- A run without a log begins like a run with an empty one. -/
lemma Unreported.of_empty {m : Machine} {log : Nat} (hlog : log < m.logs.size)
    (hempty : m.events log = []) :
    Unreported log { m with reporter := none } { m with reporter := some log } := by
  refine Unreported.mk (m := { m with reporter := none }) rfl hlog fun e he => ?_
  change e ∈ m.events log at he
  rw [hempty] at he
  cases he

/-- A program does the same with and without an empty log attached, unless an assertion
fails.  If one does, the run without a log ends with the message of the first failure in
the log, and has printed the beginning of what the other run prints. -/
theorem Program.run_reporter (l : Limits) (p : Program) (s : Scope) {m : Machine} {log : Nat}
    (hlog : log < m.logs.size) (hempty : m.events log = []) :
    let off := p.run l s { m with reporter := none }
    let on := p.run l s { m with reporter := some log }
    ((∀ e ∈ on.2.events log, e.passed = true) →
      on.1 = off.1 ∧ on.2.output = off.2.output ∧ on.2.frames = off.2.frames) ∧
    ((∃ e ∈ on.2.events log, e.passed = false) →
      ∃ e, firstFailure? (on.2.events log) = some e ∧ off.1 = .error (.custom e.message) ∧
        off.2.output.toList <+: on.2.output.toList) := by
  intro off on
  have hS : (Simulation.ofMachines (Unreported log) (EndedByFailure log)).Lawful :=
    Unreported.laws.lawful
  have hfinish : on.1 = off.1 ∧ Unreported log off.2 on.2 ∨
      ∃ e, off.1 = .error e ∧ EndedByFailure log e off.2 on.2 :=
    p.finish_matches hS (l.contexts_self hS m.depth) s (Unreported.of_empty hlog hempty)
  rcases hfinish with ⟨hvalue, hmachine⟩ | ⟨e, he, hcut⟩
  · refine ⟨fun _ => ⟨hvalue, hmachine.output_eq, hmachine.frames_eq⟩, ?_⟩
    rintro ⟨e, hmem, he⟩
    rw [hmachine.passed hmem] at he
    cases he
  · obtain ⟨event, hevent, rfl⟩ := hcut.failure
    refine ⟨fun hpassed => ?_, fun _ => ⟨event, hevent, he, hcut.output⟩⟩
    obtain ⟨hmem, hfailed⟩ := mem_of_firstFailure? hevent
    rw [hpassed event hmem] at hfailed
    cases hfailed

/-- Of a passed assertion, two failed ones and a printed line, the run without a log sees the
passed assertion and the first failed one. -/
theorem Program.run_reporter_failures :
    let check (b : Bool) (message : String) : Stmt :=
      .expr (.call .synthetic (.name .synthetic "hakiki")
        [.boolean .synthetic b, .text .synthetic message])
    let print : Stmt := .expr (.call .synthetic (.name .synthetic "andika") [])
    let p : Program := ⟨[check true "a", check false "b", print, check false "c"], .synthetic⟩
    let (s, m) := Machine.newTop { logs := #[#[]] }
    0 < m.logs.size ∧ m.events 0 = [] ∧
    (p.run {} s { m with reporter := none }).1 = .error (.custom "b") ∧
    (p.run {} s { m with reporter := some 0 }).1 = .boolean true := by
  intro check print p
  have hlog : 0 < (Machine.newTop { logs := #[#[]] }).2.logs.size := by decide
  have hrun := (Program.run_reporter {} p ⟨0, []⟩ hlog rfl).2 ⟨⟨false, "c"⟩, by decide, rfl⟩
  obtain ⟨e, he, herror, -⟩ := hrun
  cases he
  exact ⟨hlog, rfl, herror, rfl⟩

end Lugha
