import Lugha.Proofs.Simulation

/-!
# Limits only cut runs off

A run that reaches no limit does not depend on the limits, and a run that reaches one
has done the same as a run under larger limits up to that point.

Both runs are compared by a simulation in which their machines are equal.  The run under
the smaller limits may break off with one of the two errors for a reached limit; then all
it has printed and recorded was printed and recorded by the other run too, and stays so
because that run only grows.
-/

namespace Lugha

/-- Whether an error says that a limit was reached. -/
def EvalError.isLimit : EvalError → Bool
  | infiniteLoop | recursionLimit => true
  | _ => false

/-- A run was cut off by a limit, and the machine of another run holds all that it printed
and recorded. -/
structure CutOff (e : EvalError) (m m' : Machine) : Prop where
  isLimit : e.isLimit
  output : m.output.toList <+: m'.output.toList
  events : ∀ log, m.events log <+: m'.events log

namespace CutOff

/-- A limit can cut off a run on the machine of the other run. -/
lemma of_isLimit {e : EvalError} (h : e.isLimit) {m m' : Machine} (hm : m = m') :
    CutOff e m m' :=
  hm ▸ ⟨h, List.prefix_rfl, fun _ => List.prefix_rfl⟩

/-- The other run may go on. -/
lemma grows {e : EvalError} {m m' m'' : Machine} (h : CutOff e m m') (hm : m'.Grows m'') :
    CutOff e m m'' :=
  ⟨h.isLimit, h.output.trans hm.output, fun log => (h.events log).trans (hm.events log)⟩

/-- Any run matches itself on equal machines. -/
lemma matches_self {α : Type} (r : Run α) :
    (Simulation.ofMachines Eq CutOff).Matches Eq r r := by
  intro m m' hm
  cases hm
  cases r m with
  | ok a m => exact .ok rfl rfl
  | error e m => exact .error rfl

/-- Equal machines stay equal at every step. -/
lemma laws : Simulation.MachineLaws Eq CutOff where
  resolve := fun _ _ => matches_self _
  makeFunction := fun _ _ _ _ => matches_self _
  set := fun s name v hm => congrArg (·.set s name v) hm
  assign := fun _ _ _ => matches_self _
  builtin := fun _ _ => matches_self _
  enclose := fun s hm => by
    cases hm
    exact ⟨rfl, rfl⟩
  depth := fun f hm => congrArg (fun m => { m with depth := f m.depth }) hm
  cut_leave := fun h => ⟨h.isLimit, h.output, h.events⟩
  cut_grows := grows

end CutOff

/-- Larger limits do not change a run that reaches none, and a run that reaches one has
printed and recorded the beginning of what it prints and records under larger limits. -/
theorem Program.run_of_limits_le {l l' : Limits} (hiterations : l.iterations ≤ l'.iterations)
    (hdepth : l.callDepth ≤ l'.callDepth) (p : Program) (s : Scope) (m : Machine) :
    ((p.run l s m).1 ≠ .error .infiniteLoop → (p.run l s m).1 ≠ .error .recursionLimit →
      p.run l' s m = p.run l s m) ∧
    ((p.run l s m).1 = .error .infiniteLoop ∨ (p.run l s m).1 = .error .recursionLimit →
      (p.run l s m).2.output.toList <+: (p.run l' s m).2.output.toList ∧
      ∀ log, (p.run l s m).2.events log <+: (p.run l' s m).2.events log) := by
  have hS := CutOff.laws.lawful
  have hcx : (Simulation.ofMachines Eq CutOff).Contexts (l.context m.depth)
      (l'.context m.depth) :=
    Limits.contexts_of_le hS hiterations (fun _ _ _ => CutOff.of_isLimit rfl)
      (Nat.sub_le_sub_right hdepth m.depth) fun _ _ _ => CutOff.of_isLimit rfl
  have hfinish : (p.run l' s m).1 = (p.run l s m).1 ∧ (p.run l s m).2 = (p.run l' s m).2 ∨
      ∃ e, (p.run l s m).1 = .error e ∧ CutOff e (p.run l s m).2 (p.run l' s m).2 :=
    p.finish_matches hS hcx s (rfl : m = m)
  rcases hfinish with ⟨hvalue, hmachine⟩ | ⟨e, he, hcut⟩
  · have heq : p.run l' s m = p.run l s m := Prod.ext hvalue hmachine.symm
    rw [heq]
    exact ⟨fun _ _ => rfl, fun _ => ⟨List.prefix_rfl, fun _ => List.prefix_rfl⟩⟩
  · refine ⟨fun hloop hcalls => ?_, fun _ => ⟨hcut.output, hcut.events⟩⟩
    have hlimit := hcut.isLimit
    cases e <;> simp_all [EvalError.isLimit]

/-- A function that prints and calls itself is cut off earlier if fewer calls may be nested;
a loop that is never entered needs one check of its condition. -/
theorem Program.run_of_limits_le_recursion :
    let l : Limits := ⟨1, 1⟩
    let l' : Limits := ⟨2, 3⟩
    let print : Stmt := .expr (.call .synthetic (.name .synthetic "andika")
      [.text .synthetic "a"])
    let again : Stmt := .expr (.call .synthetic (.name .synthetic "f") [])
    let f : Expr := .function .synthetic (some ⟨"f", .synthetic⟩) []
      (.mk .synthetic [print, again])
    let recursion : Program := ⟨[.expr f, again], .synthetic⟩
    let loop : Program := ⟨[.expr (.loop .synthetic (.boolean .synthetic false)
      (.mk .synthetic [again]))], .synthetic⟩
    let (s, m) := Machine.newTop {}
    l.iterations ≤ l'.iterations ∧ l.callDepth ≤ l'.callDepth ∧
    (recursion.run l s m).1 = .error .recursionLimit ∧
    (recursion.run l s m).2.output.toList <+: (recursion.run l' s m).2.output.toList ∧
    (recursion.run l s m).2.output ≠ (recursion.run l' s m).2.output ∧
    (loop.run l s m).1 = .null ∧ loop.run l' s m = loop.run l s m := by
  intro l l' print again f recursion loop
  have hiterations : l.iterations ≤ l'.iterations := by decide
  have hdepth : l.callDepth ≤ l'.callDepth := by decide
  refine ⟨hiterations, hdepth, rfl, ?_, ?_, rfl, ?_⟩
  · exact ((Program.run_of_limits_le hiterations hdepth recursion _ _).2 (.inr rfl)).1
  · decide +kernel
  · exact (Program.run_of_limits_le hiterations hdepth loop _ _).1 nofun nofun

end Lugha
