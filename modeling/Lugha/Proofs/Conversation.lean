import Lugha.Proofs.Concatenation
import Lugha.Proofs.Places
import Lugha.Proofs.Signals
import Lugha.Session

/-!
# Line by line and all at once

A program can be given to a session in pieces or be run as a whole.  Pieces that can each be read
alone, that end with a semicolon and return from functions only make no difference: the whole
prints what the pieces print, ends with the error of the first piece that fails, and else binds
the same names.

The text of the whole is read as the statements of all pieces, up to places.  The run of the
whole is followed piece by piece.  Between two pieces the machine of the session and that of the
whole are twins: the session has handed out the lines that the whole keeps.  A piece that ends
with a value lets the whole go on with the next one, and a piece that fails ends it.
-/

namespace Lugha

/-! ### Pieces of a program -/

/-- Whether every `rudisha` of a program stands in the body of a function. -/
def Program.returnsInFunctions (p : Program) : Bool :=
  Stmt.sendOnly ⟨true, true⟩ ⟨true, false⟩ p.stmts

/-- The last token of a source, before the mark of the end. -/
def Source.lastToken? (src : Source) : Option TokenKind :=
  ((scan src.text).1.map (·.kind)).dropLast.getLast?

/-- Whether the last token of a source is a semicolon. -/
def Source.isTerminated (src : Source) : Bool :=
  match src.lastToken? with
  | some (.symbol s) => s == .semicolon
  | _ => false

/-- Whether a piece of a program can be read alone, ends with a semicolon and returns from functions
only. -/
def Source.standsAlone (src : Source) : Bool :=
  !src.parse.diagnostics.hasErrors && src.isTerminated && src.parse.program.returnsInFunctions

mutual

/-- The signals of an expression do not depend on places. -/
lemma Expr.sendsOnly_mapSpans (inner : Signals) (f : Span → Span) :
    ∀ (here : Signals) (e : Expr), (e.mapSpans f).sendsOnly inner here = e.sendsOnly inner here
  | _, .number .. | _, .text .. | _, .boolean .. | _, .null .. | _, .name .. => by
    simp only [Expr.mapSpans, Expr.sendsOnly]
  | here, .call _ callee args => by
    simp only [Expr.mapSpans, Expr.sendsOnly, callee.sendsOnly_mapSpans inner f here,
      Expr.sendOnly_mapSpansList inner f here args]
  | here, .binary _ _ left right => by
    simp only [Expr.mapSpans, Expr.sendsOnly, left.sendsOnly_mapSpans inner f here,
      right.sendsOnly_mapSpans inner f here]
  | here, .unary _ _ operand | here, .paren _ operand => by
    simp only [Expr.mapSpans, Expr.sendsOnly, operand.sendsOnly_mapSpans inner f here]
  | here, .conditional branches => by
    simp only [Expr.mapSpans, Expr.sendsOnly, branches.sendsOnly_mapSpans inner f here]
  | here, .loop _ condition body => by
    simp only [Expr.mapSpans, Expr.sendsOnly, condition.sendsOnly_mapSpans inner f here,
      body.sendsOnly_mapSpans inner f here.inLoop]
  | _, .function _ _ _ body => by
    simp only [Expr.mapSpans, Expr.sendsOnly, body.sendsOnly_mapSpans inner f inner]

/-- The signals of arguments do not depend on places. -/
lemma Expr.sendOnly_mapSpansList (inner : Signals) (f : Span → Span) :
    ∀ (here : Signals) (es : List Expr),
      Expr.sendOnly inner here (Expr.mapSpansList f es) = Expr.sendOnly inner here es
  | _, [] => rfl
  | here, e :: es => by
    simp only [Expr.mapSpansList, Expr.sendOnly, e.sendsOnly_mapSpans inner f here,
      Expr.sendOnly_mapSpansList inner f here es]

/-- The signals of a conditional do not depend on places. -/
lemma Conditional.sendsOnly_mapSpans (inner : Signals) (f : Span → Span) :
    ∀ (here : Signals) (c : Conditional),
      (c.mapSpans f).sendsOnly inner here = c.sendsOnly inner here
  | here, .ifThen _ condition yes => by
    simp only [Conditional.mapSpans, Conditional.sendsOnly,
      condition.sendsOnly_mapSpans inner f here, yes.sendsOnly_mapSpans inner f here]
  | here, .ifElse _ condition yes no => by
    simp only [Conditional.mapSpans, Conditional.sendsOnly,
      condition.sendsOnly_mapSpans inner f here, yes.sendsOnly_mapSpans inner f here,
      no.sendsOnly_mapSpans inner f here]
  | here, .elseIf _ condition yes next => by
    simp only [Conditional.mapSpans, Conditional.sendsOnly,
      condition.sendsOnly_mapSpans inner f here, yes.sendsOnly_mapSpans inner f here,
      next.sendsOnly_mapSpans inner f here]

/-- The signals of a block do not depend on places. -/
lemma Block.sendsOnly_mapSpans (inner : Signals) (f : Span → Span) :
    ∀ (here : Signals) (b : Block), (b.mapSpans f).sendsOnly inner here = b.sendsOnly inner here
  | here, .mk _ stmts => by
    simp only [Block.mapSpans, Block.sendsOnly, Stmt.sendOnly_mapSpansList inner f here stmts]

/-- The signals of statements do not depend on places. -/
lemma Stmt.sendOnly_mapSpansList (inner : Signals) (f : Span → Span) :
    ∀ (here : Signals) (stmts : List Stmt),
      Stmt.sendOnly inner here (Stmt.mapSpansList f stmts) = Stmt.sendOnly inner here stmts
  | _, [] => rfl
  | here, stmt :: stmts => by
    simp only [Stmt.mapSpansList, Stmt.sendOnly, stmt.sendsOnly_mapSpans inner f here,
      Stmt.sendOnly_mapSpansList inner f here stmts]

/-- The signals of a statement do not depend on places. -/
lemma Stmt.sendsOnly_mapSpans (inner : Signals) (f : Span → Span) :
    ∀ (here : Signals) (stmt : Stmt),
      (stmt.mapSpans f).sendsOnly inner here = stmt.sendsOnly inner here
  | here, .bind _ _ value | here, .assign _ _ value | here, .returnValue _ value
  | here, .expr value => by
    simp only [Stmt.mapSpans, Stmt.sendsOnly, value.sendsOnly_mapSpans inner f here]
  | _, .returnNothing _ | _, .breakLoop _ | _, .continueLoop _ => rfl

end

/-! ### The text of the whole -/

/-- The last token of a layout is that of its text. -/
lemma LaidOut.lastToken?_eq {ks : List TokenKind} {src : Source} (h : LaidOut ks src.text.toList) :
    src.lastToken? = ks.getLast? := by
  have hkinds : (scan src.text).1.map (·.kind) = ks ++ [.endOfFile] := (h.scanFrom .origin).1
  rw [Source.lastToken?, hkinds, List.dropLast_concat]

/-- A piece is a layout of tokens that end with a semicolon and are read as its statements. -/
lemma Source.laidOut_of_standsAlone {src : Source} (h : src.standsAlone) :
    ∃ ks, LaidOut ks src.text.toList ∧ ks.getLast? = some (.symbol .semicolon) ∧
      Stmt.ReadFrom ks src.parse.program.stmts := by
  simp only [standsAlone, Bool.and_eq_true, Bool.not_eq_true'] at h
  obtain ⟨ks, hlaid, -, hread⟩ := Source.readFrom_of_clean h.1.1
  refine ⟨ks, hlaid, ?_, hread⟩
  have hterminated := h.1.2
  rw [isTerminated, hlaid.lastToken?_eq] at hterminated
  split at hterminated
  · next hlast => rw [hlast, eq_of_beq hterminated]
  · cases hterminated

/-- A piece returns from functions only. -/
lemma Source.returnsInFunctions_of_standsAlone {src : Source} (h : src.standsAlone) :
    src.parse.program.returnsInFunctions := by
  rw [standsAlone, Bool.and_eq_true] at h
  exact h.2

/-- A layout holds no mark of the end. -/
lemma LaidOut.endOfFile_notMem {ks : List TokenKind} {cs : List Char} (h : LaidOut ks cs) :
    .endOfFile ∉ ks := by
  induction h with
  | done => exact List.not_mem_nil
  | token _ hw _ _ ih =>
    rw [List.mem_cons, not_or]
    refine ⟨?_, ih⟩
    rintro rfl
    cases hw

/-- The tokens of a layout that end with a semicolon are closed. -/
lemma LaidOut.closed {ks : List TokenKind} {cs : List Char} (h : LaidOut ks cs)
    (hlast : ks.getLast? = some (.symbol .semicolon)) : Closed ks := by
  refine ⟨h.endOfFile_notMem, fun k hk => ?_⟩
  rw [hlast] at hk
  exact (Option.some.inj hk).symm

/-- Pieces that are joined by newlines are a layout of tokens that are read as the statements of
all pieces. -/
lemma Source.readFrom_joined (name : String) :
    ∀ {pieces : List String}, (∀ piece ∈ pieces, (Source.mk name piece).standsAlone) →
      ∃ ks, LaidOut ks ("\n".intercalate pieces).toList ∧ Stmt.ReadFrom ks
        (pieces.flatMap fun piece => (Source.mk name piece).parse.program.stmts)
  | [], _ => ⟨[], .done (.filler .nil), .nil⟩
  | [piece], h => by
    obtain ⟨ks, hlaid, -, hread⟩ := Source.laidOut_of_standsAlone (h piece (.head _))
    refine ⟨ks, ?_, by simpa using hread⟩
    simpa using hlaid
  | piece :: next :: pieces, h => by
    obtain ⟨ks, hlaid, hlast, hread⟩ := Source.laidOut_of_standsAlone (h piece (.head _))
    obtain ⟨ls, hlaid', hread'⟩ := Source.readFrom_joined name fun p hp => h p (.tail _ hp)
    refine ⟨ks ++ ls, ?_, hread.append (hlaid.closed hlast) hread'⟩
    rw [String.intercalate_cons_cons]
    simpa using hlaid.append hlaid'

/-! ### Statements one after the other -/

/-- Statements are evaluated up to a signal, and then further ones. -/
lemma Stmt.evalList_append (cx : Context) (s : Scope) (ys : List Stmt) :
    ∀ (xs : List Stmt) {last : Value}, last.isSignal = false →
      Stmt.evalList cx s (xs ++ ys) last = (Stmt.evalList cx s xs last >>= fun v =>
        if v.isSignal then pure v else Stmt.evalList cx s ys v)
  | [], last, hlast => by
    funext m
    rw [List.nil_append, Run.bind_eq, Stmt.evalList]
    simp only [pure, EStateM.pure, hlast]
    rfl
  | stmt :: xs, last, _ => by
    funext m
    rw [List.cons_append, Run.bind_eq, Stmt.evalList, Stmt.evalList, withOperand_eq, withOperand_eq]
    cases stmt.eval cx s m with
    | error e m => rfl
    | ok v m =>
      dsimp only
      cases hsignal : (v.asOperand stmt.isLoop).isSignal with
      | true => simp only [if_true, hsignal, pure, EStateM.pure]
      | false =>
        rw [Stmt.evalList_append cx s ys xs hsignal, Run.bind_eq]
        rfl

/-- The first statements of a run settle it, or it goes on with the others. -/
lemma Stmt.settled_append (cx : Context) (s : Scope) (xs ys : List Stmt) {last : Value}
    (hlast : last.isSignal = false) (m : Machine) :
    Run.settled (Stmt.evalList cx s (xs ++ ys) last) m =
      match Stmt.evalList cx s xs .null m with
      | .ok v m =>
        if v.isSignal then v.settle m
        else Run.settled (Stmt.evalList cx s ys (if xs.isEmpty then last else v)) m
      | .error e m => .error e m := by
  cases xs with
  | nil =>
    -- no statement is evaluated, and the last value stays what it was
    rw [Stmt.evalList]
    rfl
  | cons x xs =>
    have hfirst : Stmt.evalList cx s (x :: xs) last = Stmt.evalList cx s (x :: xs) .null := by
      rw [Stmt.evalList, Stmt.evalList]
    rw [Run.settled, Run.bind_eq, Stmt.evalList_append cx s ys (x :: xs) hlast, Run.bind_eq, hfirst]
    cases Stmt.evalList cx s (x :: xs) .null m with
    | error e m => rfl
    | ok v m =>
      cases hsignal : v.isSignal with
      | true => simp only [if_true, hsignal, pure, EStateM.pure]
      | false =>
        simp only [hsignal, Bool.false_eq_true, if_false, List.isEmpty_cons]
        rw [Run.settled, Run.bind_eq]

/-- A machine that binds data only. -/
def Machine.Tame (m : Machine) : Prop :=
  m.Holds (fun _ => True) (Value.Tame (fun _ => True) ⟨true, true⟩)

/-- Values that look the same are data together. -/
lemma Value.Alike.isData_eq {v v' : Value} (h : v.Alike v') : v'.isData = v.isData := by
  cases h <;> rfl

/-- Data is no signal. -/
lemma Value.isSignal_of_isData {v : Value} (h : v.isData) : v.isSignal = false := by
  cases v with
  | error | jump | returned => cases h
  | _ => rfl

/-- Data is settled as it is. -/
lemma Value.settle_of_isData {v : Value} (h : v.isData) : v.settle = pure v := by
  cases v with
  | error | jump | returned => cases h
  | _ => rfl

/-- How the same statements end on two machines: with data, or with an error after which no
further ones are evaluated. -/
inductive Stmt.EndAlike (printed : Array String) (cx : Context) (s : Scope) (xs xs' : List Stmt)
    (m m' : Machine) : Prop
  | data {v : Value} {n n' : Machine} (hv : v.isData) (hn : n.Tame)
      (hrun : Run.settled (Stmt.evalList cx s xs .null) m = .ok v n)
      (hrun' : ∀ ys last, last.isData → ∃ next, next.isData ∧
        Run.settled (Stmt.evalList cx s (xs' ++ ys) last) m' =
          Run.settled (Stmt.evalList cx s ys next) n')
      (htwin : n.Twin printed n') : EndAlike printed cx s xs xs' m m'
  | error {e : EvalError} {n n' : Machine}
      (hrun : Run.settled (Stmt.evalList cx s xs .null) m = .error e n)
      (hrun' : ∀ ys last, last.isData →
        Run.settled (Stmt.evalList cx s (xs' ++ ys) last) m' = .error e n')
      (htwin : n.Twin printed n') : EndAlike printed cx s xs xs' m m'

/-- Statements that do not return end alike on machines that are twins. -/
lemma Stmt.endAlike {l : Limits} {s : Scope} {printed : Array String} {xs xs' : List Stmt}
    (hsame : Stmt.mapSpansList .forget xs = Stmt.mapSpansList .forget xs')
    (hreturns : Stmt.sendOnly ⟨true, true⟩ ⟨true, false⟩ xs) {m m' : Machine}
    (hm : m.Twin printed m') (htame : m.Tame) :
    Stmt.EndAlike printed (l.context 0) s xs xs' m m' := by
  have hS := Simulation.placeless.lawful printed
  have hagree := Stmt.evalList_matches hS (l.contexts_self hS 0) (rfl : s = s) xs xs'
    (Stmt.likeList_of_forget xs xs' hsame) (hS.literal (v := .null) rfl) hm
  have hsends := Stmt.sends_evalList (l.sends_context 0) (s := s) (fun _ _ => trivial)
    ⟨true, false⟩ xs hreturns (.of_isLiteral (v := .null) rfl) m htame
  have hmore (ys : List Stmt) {last : Value} (hlast : last.isData) :=
    Stmt.settled_append (l.context 0) s xs' ys (Value.isSignal_of_isData hlast) m'
  have hrun := Run.bind_eq (Stmt.evalList (l.context 0) s xs .null) Value.settle m
  generalize Stmt.evalList (l.context 0) s xs .null m = x at hagree hsends hrun
  generalize Stmt.evalList (l.context 0) s xs' .null m' = x' at hagree hmore
  cases hagree with
  | cut hcut => cases hcut
  | error htwin => exact .error hrun (fun ys _ hlast => hmore ys hlast) htwin
  | @ok v v' n n' hv htwin =>
    cases hsends with
    | ok hsent hn =>
    cases hsent with
    | returned _ h => cases h
    | jump j =>
      -- a jump has no loop to leave, neither at the end of the piece nor in the whole
      cases hv.alike with
      | refl => exact .error hrun (fun ys _ hlast => hmore ys hlast) htwin
    | data hdata =>
      have hv' : v'.isData := hv.alike.isData_eq.trans hdata.within.isData
      refine .data hdata.within.isData hn ?_ (fun ys last hlast => ?_) htwin
      · exact hrun.trans (congrFun (Value.settle_of_isData hdata.within.isData) n)
      · refine ⟨if xs'.isEmpty then last else v', ?_, ?_⟩
        · split
          · exact hlast
          · exact hv'
        · rw [hmore ys hlast]
          simp only [Value.isSignal_of_isData hv', Bool.false_eq_true, if_false]

/-! ### A session -/

/-- The error that a value stands for. -/
def Value.error? : Value → Option EvalError
  | error e => some e
  | _ => none

/-- Data stands for no error. -/
lemma Value.error?_of_isData {v : Value} (h : v.isData) : v.error? = none := by
  cases v with
  | error | jump | returned => cases h
  | _ => rfl

namespace Outcome

/-- The lines that a piece of input has printed. -/
def lines : Outcome → List String
  | evaluated output _ => output
  | _ => []

/-- The error that has ended a piece of input. -/
def error? : Outcome → Option EvalError
  | evaluated _ (some v) => v.error?
  | _ => none

/-- Whether a piece of input was evaluated. -/
def isEvaluated : Outcome → Bool
  | evaluated .. => true
  | _ => false

end Outcome

/-- Evaluates pieces of input one after the other. -/
def Session.evalEach (s : Session) : List String → List Outcome × Session
  | [] => ([], s)
  | piece :: pieces =>
    let first := s.eval piece
    let others := first.2.evalEach pieces
    (first.1 :: others.1, others.2)

/-- Every piece of input has an outcome. -/
lemma Session.length_evalEach (s : Session) (pieces : List String) :
    (s.evalEach pieces).1.length = pieces.length := by
  induction pieces generalizing s with
  | nil => rfl
  | cons piece pieces ih => rw [evalEach, List.length_cons, List.length_cons, ih]

/-- A text whose last token is a semicolon is neither empty nor does it end a session. -/
lemma Session.not_exit_of_laidOut {input : String} {ks : List TokenKind}
    (hlaid : LaidOut ks input.toList) (hlast : ks.getLast? = some (.symbol .semicolon)) :
    input.isEmpty = false ∧ Session.exitCommands.contains input = false := by
  have hended : (Source.mk "" input).isTerminated := by
    have hlast' : (Source.mk "" input).lastToken? = ks.getLast? := LaidOut.lastToken?_eq hlaid
    rw [Source.isTerminated, hlast', hlast]
    rfl
  have hempty : (Source.mk "" "").isTerminated = false := by decide +kernel
  have hcommands : ∀ c ∈ exitCommands, (Source.mk "" c).isTerminated = false := by decide +kernel
  constructor
  · rw [Bool.eq_false_iff]
    intro h
    rw [String.isEmpty_iff.1 h, hempty] at hended
    cases hended
  · rw [Bool.eq_false_iff]
    intro h
    rw [hcommands input (List.contains_iff_mem.1 h)] at hended
    cases hended

/-- A session runs a piece that stands alone, up to places, and hands out the printed lines. -/
lemma Session.eval_of_standsAlone (s : Session) {name piece : String}
    (h : (Source.mk name piece).standsAlone) :
    ∃ q : Program, Stmt.mapSpansList .forget q.stmts =
        Stmt.mapSpansList .forget (Source.mk name piece).parse.program.stmts ∧
      (s.eval piece).1.isEvaluated ∧
      (s.eval piece).1.lines = (q.run s.limits s.scope s.machine).2.output.toList ∧
      (s.eval piece).1.error? = (q.run s.limits s.scope s.machine).1.error? ∧
      (s.eval piece).2 = { s with
        count := s.count + 1
        machine := (q.run s.limits s.scope s.machine).2.takeOutput.2 } := by
  obtain ⟨ks, hlaid, hlast, hread⟩ := Source.laidOut_of_standsAlone h
  obtain ⟨hempty, hexit⟩ := Session.not_exit_of_laidOut hlaid.trim hlast
  let src : Source := ⟨"<mstari " ++ toString (s.count + 1) ++ ">", Text.trim piece⟩
  have haccepted : src.parse.accepted = .ok src.parse.program ∧ _ :=
    Source.accepted_of_readFrom hlaid.trim hread
  refine ⟨src.parse.program, haccepted.2, ?_⟩
  generalize hr : src.parse.program.run s.limits s.scope s.machine = r
  have heval : ∃ value, s.eval piece = (.evaluated r.2.output.toList value,
        { s with count := s.count + 1, machine := r.2.takeOutput.2 }) ∧
      Outcome.error? (.evaluated r.2.output.toList value) = r.1.error? := by
    unfold Session.eval
    dsimp only [src] at haccepted hempty hexit hr ⊢
    rw [hempty, hexit, if_neg Bool.false_ne_true, if_neg Bool.false_ne_true, haccepted.1]
    dsimp only
    rw [hr]
    refine ⟨_, rfl, ?_⟩
    cases r.1 <;> rfl
  obtain ⟨value, heval, herror⟩ := heval
  rw [heval]
  exact ⟨rfl, rfl, herror, rfl⟩

/-! ### Piece by piece -/

/-- What pieces of input have printed up to the first one that fails, and its error. -/
def RunReport.ofOutcomes : List Outcome → RunReport
  | [] => ⟨[], none⟩
  | outcome :: outcomes =>
    match outcome.error? with
    | some e => ⟨outcome.lines, some e⟩
    | none => ⟨outcome.lines ++ (ofOutcomes outcomes).output, (ofOutcomes outcomes).error⟩

/-- Without an error all lines are reported. -/
lemma RunReport.ofOutcomes_of_forall {outcomes : List Outcome}
    (h : ∀ o ∈ outcomes, o.error? = none) :
    ofOutcomes outcomes = ⟨outcomes.flatMap (·.lines), none⟩ := by
  induction outcomes with
  | nil => rfl
  | cons o outcomes ih =>
    rw [List.forall_mem_cons] at h
    rw [ofOutcomes, h.1, ih h.2, List.flatMap_cons]

/-- The lines up to the first error are reported. -/
lemma RunReport.ofOutcomes_of_error {before after : List Outcome} {o : Outcome} {e : EvalError}
    (h : ∀ o ∈ before, o.error? = none) (ho : o.error? = some e) :
    ofOutcomes (before ++ o :: after) = ⟨(before ++ [o]).flatMap (·.lines), some e⟩ := by
  induction before with
  | nil => simp [ofOutcomes, ho]
  | cons first before ih =>
    rw [List.forall_mem_cons] at h
    rw [List.cons_append, ofOutcomes, h.1, ih h.2, List.cons_append, List.flatMap_cons]

/-- A session, and the machine of a run of all that the session was given. -/
structure Session.InStep (s : Session) (l : Limits) (printed : Array String) (m : Machine) :
    Prop where
  limits : s.limits = l
  scope : s.scope = ⟨0, []⟩
  twin : s.machine.Twin printed m
  tame : s.machine.Tame
  untaken : s.machine.output = #[]
  idle : s.machine.depth = 0

/-- A new session is in step with a new machine. -/
lemma Session.start_inStep (l : Limits) :
    (Session.start l).InStep l #[] ({} : Machine).newTop.2 where
  limits := rfl
  scope := rfl
  twin := .refl _
  tame := by
    have hnew := Machine.Holds.newTop (Value.Tame (fun _ => True) ⟨true, true⟩) {}
    exact ⟨fun i _ => hnew.bound i (Nat.zero_le i), fun _ _ => trivial⟩
  untaken := rfl
  idle := rfl

/-- The statements of a piece, as the run of the whole goes through them: the session stays in step
with it, or the piece fails and ends it. -/
lemma Session.InStep.eval {s : Session} {l : Limits} {printed : Array String} {m : Machine}
    (h : s.InStep l printed m) {name piece : String} (hpiece : (Source.mk name piece).standsAlone)
    {xs : List Stmt} (hxs : Stmt.mapSpansList .forget xs =
      Stmt.mapSpansList .forget (Source.mk name piece).parse.program.stmts) :
    ∃ n, n.output = printed ++ (s.eval piece).1.lines.toArray ∧
      ((s.eval piece).1.error? = none ∧ (s.eval piece).2.InStep l n.output n ∧
          (∀ ys last, last.isData → ∃ next, next.isData ∧
            Run.settled (Stmt.evalList (l.context 0) ⟨0, []⟩ (xs ++ ys) last) m =
              Run.settled (Stmt.evalList (l.context 0) ⟨0, []⟩ ys next) n) ∨
        ∃ e, (s.eval piece).1.error? = some e ∧ ∀ ys last, last.isData →
          Run.settled (Stmt.evalList (l.context 0) ⟨0, []⟩ (xs ++ ys) last) m = .error e n) := by
  obtain ⟨q, hq, -, hlines, herror, hsession⟩ := s.eval_of_standsAlone hpiece
  rw [hlines, herror, hsession]
  rw [h.limits, h.scope, Program.run, h.idle]
  have hreturns : Stmt.sendOnly ⟨true, true⟩ ⟨true, false⟩ q.stmts := by
    rw [← Stmt.sendOnly_mapSpansList _ .forget, hq, Stmt.sendOnly_mapSpansList]
    exact Source.returnsInFunctions_of_standsAlone hpiece
  have hgrows : Run.Growing (q.eval (l.context 0) ⟨0, []⟩) :=
    .settled (Stmt.growing_evalList (l.growing_context 0) _ q.stmts .null)
  have hdepth := (hgrows s.machine).depth
  unfold Run.finish
  cases Stmt.endAlike (l := l) (s := ⟨0, []⟩) (hq.trans hxs.symm) hreturns h.twin h.tame with
  | @data v k n hv hk hrun hrun' htwin =>
    rw [Program.eval, hrun] at hdepth ⊢
    refine ⟨n, by simpa using htwin.output, .inl ⟨Value.error?_of_isData hv, ?_, hrun'⟩⟩
    have htaken : k.takeOutput.2.Twin n.output n :=
      htwin.congr rfl rfl (by simp [Machine.takeOutput]) htwin.logs htwin.reporter
        htwin.functions htwin.depth
    exact ⟨rfl, rfl, htaken, hk.congr rfl, rfl, hdepth.trans h.idle⟩
  | @error e k n hrun hrun' htwin =>
    rw [Program.eval, hrun]
    exact ⟨n, by simpa using htwin.output, .inr ⟨e, rfl, hrun'⟩⟩

/-- The run of the whole follows the session up to the first piece that fails. -/
lemma Session.InStep.evalEach {l : Limits} {name : String} {pieces : List String}
    (hpieces : ∀ piece ∈ pieces, (Source.mk name piece).standsAlone) {s : Session}
    {printed : Array String} {m : Machine} (h : s.InStep l printed m) {xs : List Stmt}
    (hxs : Stmt.mapSpansList .forget xs = Stmt.mapSpansList .forget
      (pieces.flatMap fun piece => (Source.mk name piece).parse.program.stmts))
    {last : Value} (hlast : last.isData) :
    let r := Run.finish (Run.settled (Stmt.evalList (l.context 0) ⟨0, []⟩ xs last)) m
    let report := RunReport.ofOutcomes (s.evalEach pieces).1
    r.1.error? = report.error ∧ r.2.output = printed ++ report.output.toArray ∧
      (report.error = none → (s.evalEach pieces).2.InStep l r.2.output r.2) := by
  induction pieces generalizing s printed m xs last with
  | nil =>
    obtain rfl : xs = [] := by simpa [Stmt.mapSpansList_eq] using hxs
    have hrun : Run.settled (Stmt.evalList (l.context 0) ⟨0, []⟩ [] last) m = .ok last m := by
      rw [Run.settled, Run.bind_eq, Stmt.evalList]
      exact congrFun (Value.settle_of_isData hlast) m
    have hprinted : m.output = printed := by
      rw [h.twin.output, h.untaken, Array.append_empty]
    rw [Run.finish, hrun]
    refine ⟨Value.error?_of_isData hlast, ?_, fun _ => hprinted ▸ h⟩
    simpa [RunReport.ofOutcomes, Session.evalEach] using hprinted
  | cons piece pieces ih =>
    rw [List.forall_mem_cons] at hpieces
    rw [List.flatMap_cons, Stmt.mapSpansList_eq, Stmt.mapSpansList_eq, List.map_append] at hxs
    -- the statements of the whole begin with those of the first piece
    obtain ⟨ys, zs, rfl, hys, hzs⟩ := List.map_eq_append_iff.1 hxs
    simp only [← Stmt.mapSpansList_eq] at hys hzs
    obtain ⟨n, houtput, ⟨herror, hinStep, hgoes⟩ | ⟨e, herror, hends⟩⟩ := h.eval hpieces.1 hys
    · obtain ⟨next, hnext, hrun⟩ := hgoes zs last hlast
      obtain ⟨hvalue, hprinted, hfinal⟩ := ih hpieces.2 hinStep hzs hnext
      rw [Run.finish, ← hrun] at hvalue hprinted hfinal
      simp only [Session.evalEach, RunReport.ofOutcomes, herror]
      refine ⟨hvalue, ?_, hfinal⟩
      rw [Run.finish, hprinted, houtput]
      simp
    · simp only [Run.finish, hends zs last hlast, Session.evalEach, RunReport.ofOutcomes, herror]
      refine ⟨rfl, houtput, ?_⟩
      intro h
      cases h

/-! ### The whole -/

/-- What is shown of the names that a scope binds itself: their types and values. -/
def Machine.displayed (m : Machine) (s : Scope) : List (String × String × String) :=
  (m.frame s.frame).map fun b => (b.1, b.2.typeName, b.2.shown)

/-- Twins show the same. -/
lemma Machine.Twin.displayed_eq {printed : Array String} {m m' : Machine} (h : m.Twin printed m')
    (s : Scope) : m'.displayed s = m.displayed s := by
  have hframe := h.frame s.frame
  unfold Machine.displayed
  generalize m.frame s.frame = bs at hframe
  generalize m'.frame s.frame = bs' at hframe
  induction hframe with
  | nil => rfl
  | cons hb _ ih =>
    rw [List.map_cons, List.map_cons, ih, hb.1, hb.2.alike.typeName_eq, hb.2.alike.shown_eq]

/-- Every piece that stands alone is evaluated. -/
lemma Session.isEvaluated_evalEach {name : String} {pieces : List String}
    (h : ∀ piece ∈ pieces, (Source.mk name piece).standsAlone) (s : Session) :
    ∀ o ∈ (s.evalEach pieces).1, o.isEvaluated := by
  induction pieces generalizing s with
  | nil =>
    intro o ho
    cases ho
  | cons piece pieces ih =>
    rw [List.forall_mem_cons] at h
    obtain ⟨-, -, hfirst, -⟩ := s.eval_of_standsAlone h.1
    rw [Session.evalEach]
    exact List.forall_mem_cons.2 ⟨hfirst, ih h.2 (s.eval piece).2⟩

/-- What is reported of the run of a source that is read as a program. -/
lemma Source.run_of_accepted {src : Source} {program : Program}
    (h : src.parse.accepted = .ok program) (l : Limits) :
    let r := program.run l ({} : Machine).newTop.1 ({} : Machine).newTop.2
    src.run l = .ok ⟨r.2.output.toList, r.1.error?⟩ := by
  unfold Source.run
  rw [h]
  dsimp only
  generalize program.run l ({} : Machine).newTop.1 ({} : Machine).newTop.2 = r
  rcases r with ⟨v, m⟩
  cases v <;> rfl

/-- The run of pieces that are joined reports what the session has printed up to the first error,
and without an error shows what the session shows. -/
lemma Source.run_eq_ofOutcomes (l : Limits) (name : String) {pieces : List String}
    (h : ∀ piece ∈ pieces, (Source.mk name piece).standsAlone) :
    let src : Source := ⟨name, "\n".intercalate pieces⟩
    let top := ({} : Machine).newTop
    let conversation := (Session.start l).evalEach pieces
    let report := RunReport.ofOutcomes conversation.1
    src.run l = .ok report ∧ src.parse.accepted = .ok src.parse.program ∧
      (report.error = none → (src.parse.program.run l top.1 top.2).2.displayed top.1 =
        conversation.2.machine.displayed conversation.2.scope) := by
  intro src top conversation report
  obtain ⟨ks, hlaid, hread⟩ := Source.readFrom_joined name h
  have haccepted : src.parse.accepted = .ok src.parse.program ∧ _ :=
    Source.accepted_of_readFrom hlaid hread
  obtain ⟨herror, houtput, hfinal⟩ := Session.InStep.evalEach h (Session.start_inStep l)
    haccepted.2 (rfl : Value.null.isData = true)
  have hrun : Run.finish (Run.settled (Stmt.evalList (l.context 0) ⟨0, []⟩
      src.parse.program.stmts .null)) top.2 = src.parse.program.run l top.1 top.2 := rfl
  rw [hrun] at herror houtput hfinal
  refine ⟨?_, haccepted.1, fun hnone => ?_⟩
  · rw [Source.run_of_accepted haccepted.1, houtput, herror]
    simp [report, conversation]
  · have hinStep := hfinal hnone
    rw [hinStep.twin.displayed_eq, hinStep.scope]
    rfl

/-- Pieces of a program that can each be read alone, end with a semicolon and return from functions
only are evaluated line by line as the whole is run.  If no piece fails, the whole prints the
lines of all pieces, and the names at the top have the same types and texts.  If one fails, the
whole fails with the error of the first one that does, after the lines up to there. -/
theorem Source.run_joined (l : Limits) (name : String) {pieces : List String}
    (h : ∀ piece ∈ pieces, (Source.mk name piece).standsAlone) :
    let src : Source := ⟨name, "\n".intercalate pieces⟩
    let top := ({} : Machine).newTop
    let outcomes := ((Session.start l).evalEach pieces).1
    let session := ((Session.start l).evalEach pieces).2
    (∀ o ∈ outcomes, o.isEvaluated) ∧
    ((∀ o ∈ outcomes, o.error? = none) →
      src.run l = .ok ⟨outcomes.flatMap (·.lines), none⟩ ∧
      ∃ program, src.parse.accepted = .ok program ∧
        (program.run l top.1 top.2).2.displayed top.1 = session.machine.displayed session.scope) ∧
    ∀ before o after e, outcomes = before ++ o :: after → (∀ o ∈ before, o.error? = none) →
      o.error? = some e → src.run l = .ok ⟨(before ++ [o]).flatMap (·.lines), some e⟩ := by
  intro src top outcomes session
  obtain ⟨hrun, haccepted, hshown⟩ := Source.run_eq_ofOutcomes l name h
  refine ⟨Session.isEvaluated_evalEach h _, fun hnone => ?_, ?_⟩
  · have hreport : RunReport.ofOutcomes outcomes = _ := RunReport.ofOutcomes_of_forall hnone
    rw [hreport] at hrun hshown
    exact ⟨hrun, src.parse.program, haccepted, hshown rfl⟩
  · intro before o after e hsplit hnone ho
    have hreport : RunReport.ofOutcomes (before ++ o :: after) = _ :=
      RunReport.ofOutcomes_of_error hnone ho
    rw [← hsplit] at hreport
    rw [hreport] at hrun
    exact hrun

/-- A function that one piece declares is called by the next one, and the third fails after it has
printed what came of that. -/
theorem Source.run_joined_declaration :
    let declare := "kazi f(n) \x7b andika(n); rudisha !n; \x7d; // negates"
    let call := "\t fanya x = f(kweli) ;\n"
    let fail := "andika(x); y; andika(x);"
    (∀ piece ∈ [declare, call, fail], (Source.mk "m" piece).standsAlone) ∧
    (Source.mk "m" ("\n".intercalate [declare, call])).run ⟨1, 1⟩ = .ok ⟨["kweli"], none⟩ ∧
    (Source.mk "m" ("\n".intercalate [declare, call, fail])).run ⟨1, 1⟩ =
      .ok ⟨["kweli", "sikweli"], some (.undefined "y")⟩ := by
  intro declare call fail
  have hall : ∀ piece ∈ [declare, call, fail], (Source.mk "m" piece).standsAlone := by
    decide +kernel
  have htwo : ∀ piece ∈ [declare, call], (Source.mk "m" piece).standsAlone :=
    fun piece hpiece => hall piece (List.mem_of_mem_take (i := 2) hpiece)
  refine ⟨hall, ?_, ?_⟩
  · obtain ⟨a, b, houtcomes⟩ := List.length_eq_two.1
      (Session.length_evalEach (Session.start ⟨1, 1⟩) [declare, call])
    have hseen : [a, b].map (fun o => (o.error?, o.lines)) = [(none, []), (none, ["kweli"])] := by
      rw [← houtcomes]
      decide +kernel
    simp only [List.map_cons, List.map_nil, List.cons.injEq, Prod.mk.injEq, and_true] at hseen
    obtain ⟨⟨ha, hlines⟩, hb, hlines'⟩ := hseen
    have hrun := (Source.run_joined ⟨1, 1⟩ "m" htwo).2.1
    rw [houtcomes] at hrun
    rw [(hrun (by simp [ha, hb])).1]
    simp [hlines, hlines']
  · obtain ⟨a, b, c, houtcomes⟩ := List.length_eq_three.1
      (Session.length_evalEach (Session.start ⟨1, 1⟩) [declare, call, fail])
    have hseen : [a, b, c].map (fun o => (o.error?, o.lines)) =
        [(none, []), (none, ["kweli"]), (some (.undefined "y"), ["sikweli"])] := by
      rw [← houtcomes]
      decide +kernel
    simp only [List.map_cons, List.map_nil, List.cons.injEq, Prod.mk.injEq, and_true] at hseen
    obtain ⟨⟨ha, hlines⟩, ⟨hb, hlines'⟩, hc, hlines''⟩ := hseen
    have hrun := (Source.run_joined ⟨1, 1⟩ "m" hall).2.2 [a, b] c [] _ houtcomes
      (by simp [ha, hb]) hc
    rw [hrun]
    simp [hlines, hlines', hlines'']

end Lugha
