import Lugha.Proofs.Bookkeeping
import Lugha.Proofs.Conversation
import Lugha.Report

/-!
# Layout does not matter

Two sources whose texts consist of tokens of the same kinds differ in blanks, comments, line ends,
the quotes of their texts and their names only.  They are read as the same program up to spans, with
the same errors up to places, and both programs do the same when they are run and when they are
tested.

The parser is run on both lists of tokens abreast.  It never passes the mark of the end, so that the
two runs are compared to their end, also when there are errors.  The programs are then run in step
on machines that are twins.  The harness looks at nothing in which twins differ, so the machines are
still twins between two tests.
-/

namespace Lugha

/-! ### Errors without their places -/

namespace ErrorList

variable {ε δ : Type}

/-- Reporting some errors, of which a part is seen. -/
lemma map_foldl_push (f : ε → δ) (es : ErrorList ε) (added : List ε) :
    (added.foldl push es).map f = (added.map f).foldl push (es.map f) := by
  induction added generalizing es with
  | nil => rfl
  | cons e added ih => rw [List.foldl_cons, ih, map_push, List.map_cons, List.foldl_cons]

/-- Joining two lists of errors, of which a part is seen. -/
lemma map_append (f : ε → δ) (es fs : ErrorList ε) :
    (es.append fs).map f = (es.map f).append (fs.map f) := by
  have hall := map_foldl_push f es fs.kept
  have hkept := congrArg kept hall
  have htotal := congrArg total hall
  simp only [append, map, List.length_map] at hkept htotal ⊢
  rw [hkept, htotal]

end ErrorList

/-- What a diagnostic says, apart from where: its code, its message and its suggestion. -/
def Diagnostic.finding (d : Diagnostic) : Nat × String × Option String :=
  (d.code, d.message, d.suggestion)

/-- What the diagnostics of a source say, apart from where. -/
def ErrorList.findings (ds : Diagnostics) : ErrorList (Nat × String × Option String) :=
  ds.map Diagnostic.finding

/-- Errors are counted without looking at their places. -/
lemma ErrorList.hasErrors_findings (ds : Diagnostics) : ds.findings.hasErrors = ds.hasErrors := rfl

/-- What is wrong with a source is told by its errors, without their places. -/
lemma Source.findings_diagnose (src : Source) (faults : ErrorList Fault) :
    (faults.map src.diagnose).findings =
      (faults.map Fault.error).map fun e => (e.code, e.message, e.suggestion?) := by
  simp [ErrorList.findings, ErrorList.map, Function.comp_def, Diagnostic.finding, Source.diagnose]

/-! ### Reading -/

/-- Tokens of the same kinds are read as the same program with the same errors, up to places. -/
lemma parseTokens_alike {tokens tokens' : List Token} {ks : List TokenKind}
    (h : tokens.map (·.kind) = ks ++ [.endOfFile])
    (h' : tokens'.map (·.kind) = ks ++ [.endOfFile]) :
    (parseTokens tokens).1.withoutSpans = (parseTokens tokens').1.withoutSpans ∧
      (parseTokens tokens).2.map Fault.error = (parseTokens tokens').2.map Fault.error := by
  have hkinds := Cursor.kinds_ofTokens_of_ended h
  have hkinds' := Cursor.kinds_ofTokens_of_ended h'
  have habreast : (Comparison.placeless [] []).Abreast False (.ofTokens tokens)
      (.ofTokens tokens') :=
    ⟨Comparison.rest_of_ended hkinds hkinds', False.elim, rfl⟩
  have houtcome := Comparison.programStatements_outcome
    (Comparison.parallel_expression maxNesting) habreast (Nat.le_refl _) (Nat.le_refl _)
  cases houtcome with
  | ok hsame hend => exact ⟨congrArg (Program.mk · .synthetic) hsame, hend.faults⟩
  | lost hlost =>
    -- the runs would have to pass the mark of the end to be no longer compared
    have hnone : List.length _ ≤ 0 := hlost
    exact absurd (Parser.rest_topLevel_pos hkinds _) (Nat.not_lt.2 hnone)

namespace Source

variable {src src' : Source}

/-- Two sources whose texts consist of well-formed tokens of the same kinds. -/
structure Reformatted (src src' : Source) : Prop where
  wellFormed : (scan src.text).2.hasErrors = false
  wellFormed' : (scan src'.text).2.hasErrors = false
  kinds : (scan src.text).1.map (·.kind) = (scan src'.text).1.map (·.kind)

namespace Reformatted

/-- Such sources are read as the same program with the same errors, up to places. -/
lemma parse (h : Reformatted src src') :
    src.parse.program.withoutSpans = src'.parse.program.withoutSpans ∧
      src.parse.diagnostics.findings = src'.parse.diagnostics.findings := by
  have hscan : (scan src.text).2 = .empty :=
    scan_eq_empty (Nat.eq_zero_of_not_pos (of_decide_eq_false h.wellFormed))
  have hscan' : (scan src'.text).2 = .empty :=
    scan_eq_empty (Nat.eq_zero_of_not_pos (of_decide_eq_false h.wellFormed'))
  obtain ⟨ks, -, hkinds⟩ := laidOut_of_scanFrom .origin src.text.toList hscan
  obtain ⟨hprogram, hfaults⟩ := parseTokens_alike hkinds (h.kinds.symm.trans hkinds)
  refine ⟨hprogram, ?_⟩
  unfold Source.parse
  dsimp only
  rw [findings_diagnose, findings_diagnose]
  refine congrArg (ErrorList.map _) ?_
  rw [ErrorList.map_append, ErrorList.map_append, hscan, hscan']
  exact congrArg (ErrorList.append _) hfaults

end Reformatted

end Source

/-! ### Running on twins -/

/-- Values that look the same stand for the same error. -/
lemma Value.Alike.error?_eq {v v' : Value} (h : v.Alike v') : v'.error? = v.error? := by
  cases h <;> rfl

/-- Values that look the same make a test fail for the same reason. -/
lemma Value.Alike.failureReason?_eq {v v' : Value} (h : v.Alike v') (message : Option String) :
    failureReason? message v' = failureReason? message v := by
  cases message with
  | some message => rfl
  | none => cases h <;> rfl

namespace Machine.Twin

variable {printed : Array String} {m m' : Machine}

/-- Runs on twins go on in step to their ends. -/
lemma steady (printed : Array String) : (Simulation.placeless printed).Steady where
  toLawful := Simulation.placeless.lawful printed
  error := fun _ => rfl
  depth := fun hm => hm.depth
  uncut := False.elim

/-- Running an expression on both machines. -/
lemma runExpr (h : m.Twin printed m') (l : Limits) (s : Scope) (e : Expr) :
    (e.run l s m).1.Twin (e.run l s m').1 ∧ (e.run l s m).2.Twin printed (e.run l s m').2 :=
  Expr.run_matches (steady printed) l (rfl : s = s) (e.like_of_forget e rfl) h

/-- Running a statement on both machines. -/
lemma runStmt (h : m.Twin printed m') (l : Limits) (s : Scope) {stmt stmt' : Stmt}
    (hstmt : stmt.mapSpans .forget = stmt'.mapSpans .forget) :
    (stmt.run l s m).1.Twin (stmt'.run l s m').1 ∧
      (stmt.run l s m).2.Twin printed (stmt'.run l s m').2 :=
  Stmt.run_matches (steady printed) l (rfl : s = s) (stmt.like_of_forget stmt' hstmt) h

/-- Running a program on both machines. -/
lemma runProgram (h : m.Twin printed m') (l : Limits) (s : Scope) {p p' : Program}
    (hp : p.withoutSpans = p'.withoutSpans) :
    (p.run l s m).1.Twin (p'.run l s m').1 ∧ (p.run l s m).2.Twin printed (p'.run l s m').2 :=
  Program.run_matches (steady printed) l (rfl : s = s)
    (Stmt.likeList_of_forget _ _ (congrArg Program.stmts hp)) h

/-- Twins that have printed the same lines. -/
lemma output_eq (h : m.Twin #[] m') : m'.output = m.output := by simpa using h.output

/-- Hoisting the same functions on both machines. -/
lemma hoist (h : m.Twin printed m') (l : Limits) (s : Scope) {p p' : Program}
    (hp : p.withoutSpans = p'.withoutSpans) :
    (p.hoist l s m).Twin printed (p'.hoist l s m') := by
  have hstmts : Stmt.mapSpansList .forget p.stmts = Stmt.mapSpansList .forget p'.stmts :=
    congrArg Program.stmts hp
  unfold Program.hoist
  generalize p.stmts = stmts at hstmts
  generalize p'.stmts = stmts' at hstmts
  induction stmts generalizing stmts' m m' with
  | nil =>
    cases stmts' with
    | nil => exact h
    | cons => cases hstmts
  | cons stmt stmts ih =>
    cases stmts' with
    | nil => cases hstmts
    | cons stmt' stmts' =>
      obtain ⟨hstmt, hrest⟩ := List.cons.inj hstmts
      have hdeclared : stmt'.declared?.isSome = stmt.declared?.isSome := by
        have hforget := congrArg (fun s => (Stmt.declared? s).isSome) hstmt
        simpa [Stmt.declared?_mapSpans] using hforget.symm
      rw [List.foldl_cons, List.foldl_cons, hdeclared]
      refine ih ?_ stmts' hrest
      split
      · exact (h.runStmt l s hstmt).2
      · exact h

/-- Emptying a log of both machines. -/
lemma clearLog (h : m.Twin printed m') (log : Nat) :
    (m.clearLog log).Twin printed (m'.clearLog log) := by
  refine h.congr rfl rfl h.output ?_ h.reporter h.functions h.depth
  simp [Machine.clearLog, h.logs]

/-- Splitting the printed lines of both machines. -/
lemma splitOutput (h : m.Twin #[] m') (mark : Nat) :
    (m'.splitOutput mark).1 = (m.splitOutput mark).1 ∧
      (m.splitOutput mark).2.Twin #[] (m'.splitOutput mark).2 := by
  have houtput := h.output_eq
  refine ⟨by simp [Machine.splitOutput, houtput], ?_⟩
  refine h.congr rfl rfl ?_ h.logs h.reporter h.functions h.depth
  simp [Machine.splitOutput, houtput]

/-- Running a test on both machines. -/
lemma runTest (h : m.Twin #[] m') (l : Limits) (s : Scope) (log mark : Nat) (name : String) :
    (Program.runTest l s log mark name m').1 = (Program.runTest l s log mark name m).1 ∧
      (Program.runTest l s log mark name m).2.Twin #[]
        (Program.runTest l s log mark name m').2 := by
  obtain ⟨hvalue, hmachine⟩ := (h.clearLog log).runExpr l s (Expr.callByName name)
  obtain ⟨hlines, hsplit⟩ := hmachine.splitOutput mark
  have hreason : failureReason? (((Expr.callByName name).run l s (m'.clearLog log)).2.lastFailure?
        log) ((Expr.callByName name).run l s (m'.clearLog log)).1 =
      failureReason? (((Expr.callByName name).run l s (m.clearLog log)).2.lastFailure? log)
        ((Expr.callByName name).run l s (m.clearLog log)).1 := by
    rw [hvalue.alike.failureReason?_eq]
    unfold Machine.lastFailure? Machine.events
    rw [hmachine.logs]
  rw [Program.runTest_eq, Program.runTest_eq]
  dsimp only
  rw [hlines, hreason]
  exact ⟨rfl, hsplit⟩

/-- Running tests on both machines. -/
lemma runEach (h : m.Twin #[] m') (l : Limits) (s : Scope) (log mark : Nat) (names : List String) :
    (Program.runEach l s log mark names m').1 = (Program.runEach l s log mark names m).1 ∧
      (Program.runEach l s log mark names m).2.Twin #[]
        (Program.runEach l s log mark names m').2 := by
  induction names generalizing m m' with
  | nil => exact ⟨rfl, h⟩
  | cons name names ih =>
    obtain ⟨hresult, hmachine⟩ := h.runTest l s log mark name
    obtain ⟨hresults, hend⟩ := ih hmachine
    refine ⟨?_, hend⟩
    unfold Program.runEach
    dsimp only
    rw [hresult, hresults]

end Machine.Twin

/-- The tests of a program do not depend on places. -/
lemma Program.tests_withoutSpans (p : Program) : p.withoutSpans.tests = p.tests := by
  have hbound (stmt : Stmt) : (stmt.mapSpans .forget).boundName? = stmt.boundName? := by
    cases stmt with
    | bind span name value => rfl
    | expr value =>
      have hdeclared := congrArg (Option.map Ident.name) (Stmt.declared?_mapSpans (.expr value))
      simpa [Stmt.mapSpans, Stmt.boundName?, Function.comp_def] using hdeclared
    | _ => rfl
  unfold Program.tests
  simp only [Program.withoutSpans, Program.mapSpans, Stmt.mapSpansList_eq, List.filterMap_map]
  simp only [Function.comp_def, hbound]

/-- Programs that differ in places are tested alike. -/
lemma Machine.Twin.runTests {m m' : Machine} (h : m.Twin #[] m') (l : Limits) (s : Scope)
    {p p' : Program} (hp : p.withoutSpans = p'.withoutSpans) :
    (p'.runTests l s m').1 = (p.runTests l s m).1 ∧
      (p.runTests l s m).2.Twin #[] (p'.runTests l s m').2 := by
  have htests : p'.tests = p.tests := by
    rw [← p.tests_withoutSpans, hp, p'.tests_withoutSpans]
  have hlog : m'.newLog.1 = m.newLog.1 := by
    unfold Machine.newLog
    rw [h.logs]
  let start : Machine := { m.newLog.2 with reporter := some m.newLog.1 }
  let start' : Machine := { m'.newLog.2 with reporter := some m.newLog.1 }
  have hstart : start.Twin #[] start' := by
    refine h.congr rfl rfl h.output ?_ rfl h.functions h.depth
    simp [start, start', Machine.newLog, h.logs]
  obtain ⟨-, htop⟩ := (hstart.hoist l s hp).runProgram l s hp
  obtain ⟨hresults, hend⟩ := htop.runEach l s m.newLog.1
    (p.run l s (p.hoist l s start)).2.output.size p.tests
  rw [Program.runTests_eq, Program.runTests_eq]
  dsimp only
  rw [htests, hlog, htop.output_eq]
  exact ⟨hresults, hend.congr rfl rfl hend.output hend.logs h.reporter hend.functions hend.depth⟩

namespace Source

variable {src src' : Source}

/-- What is reported of the tests of a source that is read as a program. -/
lemma runTests_of_accepted {program : Program} (h : src.parse.accepted = .ok program) (l : Limits) :
    let tests := program.runTests l ({} : Machine).newTop.1 ({} : Machine).newTop.2
    src.runTests l = .ofResults src.name tests.1 tests.2.output.toList := by
  unfold Source.runTests
  rw [h]
  rfl

/-- The layout of a source does not matter.

Two sources of the same well-formed tokens are read as the same program up to spans. The same number
of errors is found in both, and the same ones are told in the same order. Under any limits both
sources print the same lines and end with the same error, and their tests have the same names,
verdicts, messages and outputs, and print the same lines outside of tests. -/
theorem layout_irrelevant (h : Reformatted src src') (l : Limits) :
    src'.parse.program.withoutSpans = src.parse.program.withoutSpans ∧
    src'.parse.diagnostics.findings = src.parse.diagnostics.findings ∧
    (src'.run l).mapError ErrorList.findings = (src.run l).mapError ErrorList.findings ∧
    (src'.runTests l).results = (src.runTests l).results ∧
    (src'.runTests l).output = (src.runTests l).output ∧
    (src'.runTests l).diagnostics.findings = (src.runTests l).diagnostics.findings := by
  obtain ⟨hprogram, hfindings⟩ := h.parse
  refine ⟨hprogram.symm, hfindings.symm, ?_⟩
  have hwrong : src'.parse.diagnostics.hasErrors = src.parse.diagnostics.hasErrors := by
    rw [← ErrorList.hasErrors_findings, ← hfindings, ErrorList.hasErrors_findings]
  cases herrors : src.parse.diagnostics.hasErrors with
  | true =>
    have hrefused : src.parse.accepted = .error src.parse.diagnostics := by
      rw [Parsed.accepted, if_pos herrors]
    have hrefused' : src'.parse.accepted = .error src'.parse.diagnostics := by
      rw [Parsed.accepted, if_pos (hwrong.trans herrors)]
    unfold Source.run Source.runTests
    rw [hrefused, hrefused']
    exact ⟨congrArg Except.error hfindings.symm, rfl, rfl, hfindings.symm⟩
  | false =>
    have haccepted : src.parse.accepted = .ok src.parse.program := by
      rw [Parsed.accepted, herrors, if_neg Bool.false_ne_true]
    have haccepted' : src'.parse.accepted = .ok src'.parse.program := by
      rw [Parsed.accepted, hwrong.trans herrors, if_neg Bool.false_ne_true]
    have hstart := Machine.Twin.refl ({} : Machine).newTop.2
    obtain ⟨hvalue, hrun⟩ := hstart.runProgram l ({} : Machine).newTop.1 hprogram
    obtain ⟨hresults, htests⟩ := hstart.runTests l ({} : Machine).newTop.1 hprogram
    rw [run_of_accepted haccepted, run_of_accepted haccepted', runTests_of_accepted haccepted,
      runTests_of_accepted haccepted', hvalue.alike.error?_eq, hrun.output_eq, hresults,
      htests.output_eq]
    exact ⟨rfl, rfl, rfl, rfl⟩

/-- A program and its failing test, on one line and on several, with other quotes and a comment. -/
theorem layout_irrelevant_quoted :
    let src : Source := ⟨"a.nr", "fanya x='a';kazi pima_x()\x7bhakiki(x==\"b\",'si \\'b\\'');\x7d"⟩
    let src' : Source := ⟨"b.nr",
      "fanya x = \"a\";\n\nkazi pima_x( ) \x7b // x\n  hakiki(x == 'b', \"si 'b'\") ;\x7d\n"⟩
    Reformatted src src' ∧
    (src'.runTests ⟨1, 1⟩).results = [⟨"pima_x", false, some "si 'b'", [], .zero⟩] := by
  intro src src'
  have h : Reformatted src src' := ⟨by decide +kernel, by decide +kernel, by cbv⟩
  have hresults : (src.runTests ⟨1, 1⟩).results =
      [⟨"pima_x", false, some "si 'b'", [], .zero⟩] := by decide +kernel
  exact ⟨h, (layout_irrelevant h ⟨1, 1⟩).2.2.2.1.trans hresults⟩

end Source

end Lugha
