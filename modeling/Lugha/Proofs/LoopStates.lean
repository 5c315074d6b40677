import Lugha.Proofs.Termination

/-!
# The course of a loop

`repeatWhile` recurses on the checks that a loop has left.  A loop can also be run by a machine that
is in one of three phases: it checks the condition, it runs the body, or it is done.  An activation
of the loop keeps the phase, a count of the checks that is raised before each of them, and the value
of the last body that ended by itself.  The count is a machine word, and it is compared with the
limit after it is raised.

Between the two stands a description of what a loop does that names neither.  `Loop.Rounds` are the
rounds that leave the loop going, `Loop.Stops` is a round that ends it, and a `Loop.Course` is some
of the former and one of the latter, or as many of the former as there may be.  Every loop has
exactly one course, the recursion and the machine of phases both follow it, and the count belongs to
one activation only.
-/

namespace Lugha

/-- The condition and the body of a loop, as runs. -/
structure Loop where
  condition : Run Value
  /-- whether the condition is a loop itself -/
  isLoop : Bool
  body : Run Value

/-- A loop of a program in a scope. -/
def Loop.inScope (cx : Context) (s : Scope) (condition : Expr) (body : Block) : Loop :=
  ⟨condition.eval cx s, condition.isLoop, body.eval cx s⟩

namespace Loop

/-! ### The machine of phases -/

/-- What is evaluated in a loop. -/
inductive Part where
  | condition
  | body
deriving DecidableEq

/-- What an activation of a loop does next. -/
inductive Phase where
  | checking
  | running
  | done (v : Value)

/-- An activation of a loop. -/
structure Activation where
  /-- how many checks were begun -/
  count : UInt64 := 0
  /-- the value of the last body that ended by itself -/
  last : Value := .null
  phase : Phase := .checking

/-- How an activation ended: what was evaluated in it, its count, and the result. -/
structure Record where
  parts : List Part
  count : UInt64
  result : EStateM.Result EvalError Machine Value

/-- The record of an activation in which something was evaluated before. -/
def Record.after (parts : List Part) (x : Record) : Record := { x with parts := parts ++ x.parts }

/-- What was evaluated in two pieces. -/
lemma Record.after_append (parts parts' : List Part) (x : Record) :
    x.after (parts ++ parts') = (x.after parts').after parts := by
  simp only [Record.after, List.append_assoc]

/-- A step of an activation: it evaluates something and goes on, or it ends. -/
inductive Step where
  | next (parts : List Part) (a : Activation) (m : Machine)
  | leave (x : Record)

/-- One step of an activation. -/
def step (L : Loop) (limit : Nat) (a : Activation) (m : Machine) : Step :=
  match a.phase with
  | .checking =>
    if limit < (a.count + 1).toNat then .leave ⟨[], a.count + 1, .error .infiniteLoop m⟩
    else
      match L.condition m with
      | .error e m => .leave ⟨[.condition], a.count + 1, .error e m⟩
      | .ok v m =>
        if (v.asOperand L.isLoop).isSignal then
          .leave ⟨[.condition], a.count + 1, .ok (v.asOperand L.isLoop) m⟩
        else if (v.asOperand L.isLoop).truthy then
          .next [.condition] ⟨a.count + 1, a.last, .running⟩ m
        else .next [.condition] ⟨a.count + 1, .null, .done a.last⟩ m
  | .running =>
    match L.body m with
    | .error e m => .leave ⟨[.body], a.count, .error e m⟩
    | .ok (.jump .vunja) m => .next [.body] { a with phase := .done (.jump .vunja) } m
    | .ok (.jump .endelea) m => .next [.body] { a with phase := .checking } m
    | .ok (.returned v) m => .next [.body] { a with phase := .done (.returned v) } m
    | .ok v m => .next [.body] ⟨a.count, v, .checking⟩ m
  | .done v => .leave ⟨[], a.count, .ok v m⟩

/-- Runs an activation for a number of steps, if it ends within them. -/
def finish (L : Loop) (limit : Nat) : Nat → Activation → Machine → Option Record
  | 0, _, _ => none
  | steps + 1, a, m =>
    match L.step limit a m with
    | .next parts a m => (L.finish limit steps a m).map (·.after parts)
    | .leave x => some x

/-- An activation ends if it is given steps enough, and how. -/
def Finishes (L : Loop) (limit : Nat) (a : Activation) (m : Machine) (x : Record) : Prop :=
  ∃ enough, ∀ steps, enough ≤ steps → L.finish limit steps a m = some x

/-! ### The course of a loop -/

/-- Whether a loop goes on after a body with this value: it ended by itself or by `endelea`. -/
def goesOn : Value → Bool
  | .jump .endelea => true
  | v => !v.isSignal

/-- The condition holds on a machine, and the machine after the check. -/
def Holds (L : Loop) (m m' : Machine) : Prop :=
  ∃ v, L.condition m = .ok v m' ∧ (v.asOperand L.isLoop).isSignal = false ∧
    (v.asOperand L.isLoop).truthy = true

/-- A round that leaves the loop going: the value of its body and the machine after it. -/
def Round (L : Loop) (m : Machine) (w : Value) (m' : Machine) : Prop :=
  ∃ m₁, L.Holds m m₁ ∧ L.body m₁ = .ok w m' ∧ goesOn w = true

/-- Rounds that leave the loop going, with the values of their bodies. -/
inductive Rounds (L : Loop) : List Value → Machine → Machine → Prop where
  | nil (m : Machine) : Rounds L [] m m
  | cons {w : Value} {ws : List Value} {m m₁ m' : Machine} (first : L.Round m w m₁)
    (others : Rounds L ws m₁ m') : Rounds L (w :: ws) m m'

/-- The last of some values that is not a signal, or else a given one. -/
def lastOf (last : Value) (ws : List Value) : Value :=
  ((ws.filter fun w => !w.isSignal).getLast?).getD last

/-- A round that ends the loop: what is evaluated in it, and the result of the loop. -/
inductive Stops (L : Loop) (last : Value) (m : Machine) :
    List Part → EStateM.Result EvalError Machine Value → Prop where
  | checkFails {e : EvalError} {m' : Machine} (h : L.condition m = .error e m') :
    Stops L last m [.condition] (.error e m')
  | checkSends {v : Value} {m' : Machine} (h : L.condition m = .ok v m')
    (hsignal : (v.asOperand L.isLoop).isSignal = true) :
    Stops L last m [.condition] (.ok (v.asOperand L.isLoop) m')
  | checkFalse {v : Value} {m' : Machine} (h : L.condition m = .ok v m')
    (hsignal : (v.asOperand L.isLoop).isSignal = false)
    (hfalse : (v.asOperand L.isLoop).truthy = false) : Stops L last m [.condition] (.ok last m')
  | bodyFails {e : EvalError} {m₁ m' : Machine} (h : L.Holds m m₁)
    (hbody : L.body m₁ = .error e m') :
    Stops L last m [.condition, .body] (.error e m')
  | bodyBreaks {m₁ m' : Machine} (h : L.Holds m m₁) (hbody : L.body m₁ = .ok (.jump .vunja) m') :
    Stops L last m [.condition, .body] (.ok (.jump .vunja) m')
  | bodyReturns {v : Value} {m₁ m' : Machine} (h : L.Holds m m₁)
    (hbody : L.body m₁ = .ok (.returned v) m') :
    Stops L last m [.condition, .body] (.ok (.returned v) m')

/-- What is evaluated in a number of rounds. -/
def alternately (rounds : Nat) : List Part :=
  (List.replicate rounds [Part.condition, .body]).flatten

/-- The course of a loop that may make a number of checks: the values of the bodies that left it
going, what was evaluated in it, and the result. -/
inductive Course (L : Loop) (limit : Nat) (m : Machine) :
    List Value → List Part → EStateM.Result EvalError Machine Value → Prop where
  /-- all checks were made, and each round left the loop going -/
  | exhausted {ws : List Value} {m' : Machine} (rounds : L.Rounds ws m m')
    (hlimit : ws.length = limit) :
    Course L limit m ws (alternately ws.length) (.error .infiniteLoop m')
  /-- a round ended the loop while there was a check left -/
  | stopped {ws : List Value} {m' : Machine} {tail : List Part}
    {r : EStateM.Result EvalError Machine Value} (rounds : L.Rounds ws m m')
    (hlimit : ws.length < limit) (stops : L.Stops (lastOf .null ws) m' tail r) :
    Course L limit m ws (alternately ws.length ++ tail) r

variable {L : Loop}

namespace Course

variable {limit : Nat} {m : Machine} {ws : List Value} {parts : List Part}
  {r : EStateM.Result EvalError Machine Value}

/-- A course begins with rounds that left the loop going. -/
lemma rounds (h : L.Course limit m ws parts r) : ∃ m', L.Rounds ws m m' := by
  cases h with
  | exhausted rounds hall => exact ⟨_, rounds⟩
  | stopped rounds hlt stops => exact ⟨_, rounds⟩

/-- There are no more of these rounds than there may be checks. -/
lemma length_le (h : L.Course limit m ws parts r) : ws.length ≤ limit := by
  cases h with
  | exhausted rounds hall => exact Nat.le_of_eq hall
  | stopped rounds hlt stops => exact Nat.le_of_lt hlt

end Course

/-! ### One round -/

/-- A check either holds or ends the loop. -/
lemma holds_or_stops (L : Loop) (m : Machine) :
    (∃ m', L.Holds m m') ∨ ∀ last, ∃ tail r, L.Stops last m tail r := by
  cases h : L.condition m with
  | error e m' => exact .inr fun last => ⟨_, _, .checkFails h⟩
  | ok v m' =>
    cases hsignal : (v.asOperand L.isLoop).isSignal with
    | true => exact .inr fun last => ⟨_, _, .checkSends h hsignal⟩
    | false =>
      cases htruthy : (v.asOperand L.isLoop).truthy with
      | true => exact .inl ⟨m', v, h, hsignal, htruthy⟩
      | false => exact .inr fun last => ⟨_, _, .checkFalse h hsignal htruthy⟩

/-- A round either leaves the loop going or ends it. -/
lemma round_or_stops (L : Loop) (m : Machine) :
    (∃ w m', L.Round m w m') ∨ ∀ last, ∃ tail r, L.Stops last m tail r := by
  obtain ⟨m₁, hholds⟩ | hstops := L.holds_or_stops m
  · cases hbody : L.body m₁ with
    | error e m' => exact .inr fun last => ⟨_, _, .bodyFails hholds hbody⟩
    | ok w m' =>
      cases w with
      | jump j =>
        cases j with
        | vunja => exact .inr fun last => ⟨_, _, .bodyBreaks hholds hbody⟩
        | endelea => exact .inl ⟨_, m', m₁, hholds, hbody, rfl⟩
      | returned v => exact .inr fun last => ⟨_, _, .bodyReturns hholds hbody⟩
      | _ => exact .inl ⟨_, m', m₁, hholds, hbody, rfl⟩
  · exact .inr hstops

/-- There is one machine after a check that holds. -/
lemma Holds.unique {m m₁ m₂ : Machine} (h₁ : L.Holds m m₁) (h₂ : L.Holds m m₂) : m₁ = m₂ := by
  obtain ⟨v₁, h₁, -⟩ := h₁
  obtain ⟨v₂, h₂, -⟩ := h₂
  rw [h₁] at h₂
  injection h₂

/-- A round has one value and one machine after it. -/
lemma Round.unique {m m₁ m₂ : Machine} {w₁ w₂ : Value} (h₁ : L.Round m w₁ m₁)
    (h₂ : L.Round m w₂ m₂) : w₁ = w₂ ∧ m₁ = m₂ := by
  obtain ⟨n₁, hholds₁, hbody₁, -⟩ := h₁
  obtain ⟨n₂, hholds₂, hbody₂, -⟩ := h₂
  obtain rfl := hholds₁.unique hholds₂
  rw [hbody₁] at hbody₂
  injection hbody₂ with hw hm
  exact ⟨hw, hm⟩

/-- Rounds that leave the loop going are determined by their number. -/
lemma Rounds.unique {ws₁ ws₂ : List Value} {m m₁ m₂ : Machine} (h₁ : L.Rounds ws₁ m m₁)
    (h₂ : L.Rounds ws₂ m m₂) (hlength : ws₁.length = ws₂.length) : ws₁ = ws₂ ∧ m₁ = m₂ := by
  induction h₁ generalizing ws₂ with
  | nil m =>
    cases h₂ with
    | nil => exact ⟨rfl, rfl⟩
    | cons first others => cases hlength
  | cons first₁ others₁ ih =>
    cases h₂ with
    | nil => cases hlength
    | cons first₂ others₂ =>
      obtain ⟨rfl, rfl⟩ := first₁.unique first₂
      obtain ⟨rfl, rfl⟩ := ih others₂ (Nat.succ.inj hlength)
      exact ⟨rfl, rfl⟩

/-- The last value of rounds after a first one. -/
lemma lastOf_cons (last w : Value) (ws : List Value) :
    lastOf last (w :: ws) = lastOf (if w.isSignal then last else w) ws := by
  unfold lastOf
  cases h : w.isSignal with
  | true => simp [h]
  | false => simp [h, List.getLast?_cons]

/-! ### The recursion follows the course -/

/-- Runs a loop with a number of checks left and the value of its last body. -/
abbrev run (L : Loop) (checks : Nat) (last : Value) : Run Value :=
  repeatWhile L.condition L.isLoop L.body checks last

/-- If the condition holds, the body is next. -/
lemma Holds.run {m m₁ : Machine} (h : L.Holds m m₁) (checks : Nat) (last : Value) :
    L.run (checks + 1) last m = (L.body >>= nextRound last (L.run checks)) m₁ := by
  obtain ⟨v, hcondition, hsignal, htruthy⟩ := h
  rw [Loop.run, repeatWhile_succ, withOperand_eq, hcondition]
  simp only [hsignal, Bool.false_eq_true, if_false]
  rw [Value.choose, if_pos htruthy]

/-- A round that leaves the loop going uses up one check. -/
lemma Round.run {m m' : Machine} {w : Value} (h : L.Round m w m') (checks : Nat) (last : Value) :
    L.run (checks + 1) last m = L.run checks (if w.isSignal then last else w) m' := by
  obtain ⟨m₁, hholds, hbody, hon⟩ := h
  rw [hholds.run, Run.bind_eq, hbody]
  cases w with
  | jump j =>
    cases j with
    | vunja => cases hon
    | endelea => rfl
  | returned v => cases hon
  | _ => rfl

/-- A round that ends the loop gives its result. -/
lemma Stops.run {m : Machine} {last : Value} {tail : List Part}
    {r : EStateM.Result EvalError Machine Value} (h : L.Stops last m tail r) (checks : Nat) :
    L.run (checks + 1) last m = r := by
  cases h with
  | checkFails h => rw [Loop.run, repeatWhile_succ, withOperand_eq, h]
  | checkSends h hsignal =>
    rw [Loop.run, repeatWhile_succ, withOperand_eq, h]
    simp only [hsignal, if_true]
  | checkFalse h hsignal hfalse =>
    rw [Loop.run, repeatWhile_succ, withOperand_eq, h]
    simp only [hsignal, Bool.false_eq_true, if_false, Value.choose, hfalse]
    rfl
  | bodyFails h hbody => rw [h.run, Run.bind_eq, hbody]
  | bodyBreaks h hbody | bodyReturns h hbody =>
    rw [h.run, Run.bind_eq, hbody]
    rfl

/-- Rounds that leave the loop going use up one check each. -/
lemma Rounds.run {ws : List Value} {m m' : Machine} (h : L.Rounds ws m m') (checks : Nat)
    (last : Value) : L.run (ws.length + checks) last m = L.run checks (lastOf last ws) m' := by
  induction h generalizing last with
  | nil m => rw [List.length_nil, Nat.zero_add]; rfl
  | cons first others ih =>
    rw [List.length_cons, Nat.add_right_comm, first.run, ih, lastOf_cons]

/-- The recursion ends as the course of the loop does. -/
lemma Course.run {limit : Nat} {m : Machine} {ws : List Value} {parts : List Part}
    {r : EStateM.Result EvalError Machine Value} (h : L.Course limit m ws parts r) :
    L.run limit .null m = r := by
  cases h with
  | exhausted rounds hlimit =>
    rw [← hlimit, ← Nat.add_zero ws.length, rounds.run]
    rfl
  | stopped rounds hlimit stops =>
    obtain ⟨checks, rfl⟩ : ∃ checks, limit = ws.length + (checks + 1) :=
      ⟨limit - ws.length - 1, by omega⟩
    rw [rounds.run, stops.run]

/-! ### The machine of phases follows the course -/

namespace Finishes

variable {limit : Nat} {a a' : Activation} {m m' : Machine}

/-- An activation that ends with its next step. -/
lemma leave {x : Record} (h : L.step limit a m = .leave x) : L.Finishes limit a m x := by
  refine ⟨1, fun steps hsteps => ?_⟩
  obtain ⟨steps, rfl⟩ := Nat.exists_eq_add_of_le' hsteps
  rw [finish, h]

/-- An activation that goes on. -/
lemma next {x : Record} {parts : List Part} (h : L.step limit a m = .next parts a' m')
    (hend : L.Finishes limit a' m' x) : L.Finishes limit a m (x.after parts) := by
  obtain ⟨enough, hend⟩ := hend
  refine ⟨enough + 1, fun steps hsteps => ?_⟩
  obtain ⟨steps, rfl⟩ := Nat.exists_eq_add_of_le' (Nat.le_of_add_left_le hsteps)
  rw [finish, h]
  simp only [hend steps (Nat.le_of_succ_le_succ hsteps), Option.map_some]

/-- An activation ends in one way. -/
lemma unique {x y : Record} (hx : L.Finishes limit a m x) (hy : L.Finishes limit a m y) :
    x = y := by
  obtain ⟨enough, hx⟩ := hx
  obtain ⟨enough', hy⟩ := hy
  have h := hx (max enough enough') (Nat.le_max_left ..)
  rw [hy _ (Nat.le_max_right ..)] at h
  exact (Option.some.inj h).symm

end Finishes

section Phases

variable {limit : Nat} {count : UInt64} {m m' : Machine} {last : Value}

/-- If the condition holds, an activation goes on to run the body. -/
lemma Holds.step (h : L.Holds m m') (hallowed : (count + 1).toNat ≤ limit) :
    L.step limit ⟨count, last, .checking⟩ m =
      .next [.condition] ⟨count + 1, last, .running⟩ m' := by
  obtain ⟨v, hcondition, hsignal, htruthy⟩ := h
  simp only [Loop.step, Nat.not_lt.2 hallowed, if_false, hcondition, hsignal, Bool.false_eq_true,
    htruthy, if_true]

/-- A round that leaves the loop going brings an activation back to its check. -/
lemma Round.finishes {w : Value} (h : L.Round m w m') (hallowed : (count + 1).toNat ≤ limit)
    {x : Record}
    (hend : L.Finishes limit ⟨count + 1, if w.isSignal then last else w, .checking⟩ m' x) :
    L.Finishes limit ⟨count, last, .checking⟩ m (x.after [.condition, .body]) := by
  obtain ⟨m₁, hholds, hbody, hon⟩ := h
  have hback : L.step limit ⟨count + 1, last, .running⟩ m₁ =
      .next [.body] ⟨count + 1, if w.isSignal then last else w, .checking⟩ m' := by
    cases w with
    | jump j =>
      cases j with
      | vunja => cases hon
      | endelea => simp only [Loop.step, hbody, Value.isSignal, if_true]
    | returned v => cases hon
    | _ => simp only [Loop.step, hbody, Value.isSignal, Bool.false_eq_true, if_false]
  rw [show [Part.condition, .body] = [.condition] ++ [.body] from rfl, Record.after_append]
  exact (hend.next hback).next (hholds.step hallowed)

/-- A round that ends the loop ends an activation. -/
lemma Stops.finishes {tail : List Part} {r : EStateM.Result EvalError Machine Value}
    (h : L.Stops last m tail r) (hallowed : (count + 1).toNat ≤ limit) :
    L.Finishes limit ⟨count, last, .checking⟩ m ⟨tail, count + 1, r⟩ := by
  have hnot := Nat.not_lt.2 hallowed
  cases h with
  | checkFails h =>
    exact .leave (by simp only [Loop.step, hnot, if_false, h])
  | checkSends h hsignal =>
    exact .leave (by simp only [Loop.step, hnot, if_false, h, hsignal, if_true])
  | @checkFalse v m' h hsignal hfalse =>
    have hdone : L.step limit ⟨count, last, .checking⟩ m =
        .next [.condition] ⟨count + 1, .null, .done last⟩ m' := by
      simp only [Loop.step, hnot, if_false, h, hsignal, hfalse, Bool.false_eq_true]
    exact (Finishes.leave rfl).next hdone
  | @bodyFails e m₁ m' h hbody =>
    have hleave : L.step limit ⟨count + 1, last, .running⟩ m₁ =
        .leave ⟨[.body], count + 1, .error e m'⟩ := by
      simp only [Loop.step, hbody]
    exact (Finishes.leave hleave).next (h.step hallowed)
  | @bodyBreaks m₁ m' h hbody =>
    have hdone : L.step limit ⟨count + 1, last, .running⟩ m₁ =
        .next [.body] ⟨count + 1, last, .done (.jump .vunja)⟩ m' := by
      simp only [Loop.step, hbody]
    exact ((Finishes.leave rfl).next hdone).next (h.step hallowed)
  | @bodyReturns v m₁ m' h hbody =>
    have hdone : L.step limit ⟨count + 1, last, .running⟩ m₁ =
        .next [.body] ⟨count + 1, last, .done (.returned v)⟩ m' := by
      simp only [Loop.step, hbody]
    exact ((Finishes.leave rfl).next hdone).next (h.step hallowed)

/-- What is evaluated in one round more. -/
lemma alternately_succ (rounds : Nat) :
    alternately (rounds + 1) = [.condition, .body] ++ alternately rounds := rfl

/-- Rounds that leave the loop going bring an activation back to its check, with as many checks
counted. -/
lemma Rounds.finishes {ws : List Value} (h : L.Rounds ws m m') (hlimit : limit ≤ UInt64.size - 2)
    (hallowed : count.toNat + ws.length ≤ limit) {counted : UInt64}
    (hcounted : counted = count + .ofNat ws.length) {x : Record}
    (hend : L.Finishes limit ⟨counted, lastOf last ws, .checking⟩ m' x) :
    L.Finishes limit ⟨count, last, .checking⟩ m (x.after (alternately ws.length)) := by
  induction h generalizing count last with
  | nil m =>
    obtain rfl : counted = count := hcounted.trans (UInt64.add_zero count)
    exact hend
  | @cons w ws m m₁ m' first others ih =>
    rw [List.length_cons] at hallowed hcounted
    rw [lastOf_cons] at hend
    have hcount : (count + 1).toNat = count.toNat + 1 :=
      toNat_add_one_of_checks hlimit (Nat.add_sub_of_le (Nat.le_of_add_right_le hallowed))
    have hsum : counted = count + 1 + .ofNat ws.length := by
      rw [hcounted, Nat.add_comm, UInt64.ofNat_add, UInt64.add_assoc]
      rfl
    rw [List.length_cons, alternately_succ, Record.after_append]
    exact first.finishes (by omega) (ih (by omega) hsum hend)

/-- An activation that begins ends as the course of the loop does, and has counted one check more
than there were rounds that left the loop going. -/
lemma Course.finishes {ws : List Value} {parts : List Part}
    {r : EStateM.Result EvalError Machine Value} (h : L.Course limit m ws parts r)
    (hlimit : limit ≤ UInt64.size - 2) :
    ∃ count : UInt64, count.toNat = ws.length + 1 ∧ L.Finishes limit {} m ⟨parts, count, r⟩ := by
  have hle := h.length_le
  obtain ⟨counted, hcounted⟩ : ∃ counted : UInt64, counted = 0 + .ofNat ws.length := ⟨_, rfl⟩
  have hcount : counted.toNat = ws.length := by
    rw [hcounted, UInt64.zero_add]
    refine UInt64.toNat_ofNat_of_lt' ?_
    simp only [UInt64.size] at hlimit ⊢
    omega
  have hnext : (counted + 1).toNat = ws.length + 1 := by
    rw [toNat_add_one_of_checks hlimit (Nat.add_sub_of_le (hcount ▸ hle)), hcount]
  have hallowed : (0 : UInt64).toNat + ws.length ≤ limit := by
    rw [UInt64.toNat_zero, Nat.zero_add]
    exact hle
  refine ⟨counted + 1, hnext, ?_⟩
  cases h with
  | @exhausted m' rounds hall =>
    have hover : limit < (counted + 1).toNat := by rw [hnext, hall]; exact Nat.lt_succ_self limit
    have hleave : L.Finishes limit ⟨counted, lastOf .null ws, .checking⟩ m'
        ⟨[], counted + 1, .error .infiniteLoop m'⟩ :=
      .leave (by simp only [step, hover, if_true])
    have hend := rounds.finishes hlimit hallowed hcounted hleave
    rw [Record.after, List.append_nil] at hend
    exact hend
  | stopped rounds hlt stops =>
    exact rounds.finishes hlimit hallowed hcounted
      (stops.finishes (Nat.le_trans (Nat.le_of_eq hnext) hlt))

end Phases

/-! ### Every loop has one course -/

/-- A loop either goes through a given number of rounds or is ended by the next round before. -/
lemma exists_rounds (L : Loop) (limit : Nat) (m : Machine) :
    ∃ ws m', L.Rounds ws m m' ∧ (ws.length = limit ∨
      ws.length < limit ∧ ∀ last, ∃ tail r, L.Stops last m' tail r) := by
  induction limit generalizing m with
  | zero => exact ⟨[], m, .nil m, .inl rfl⟩
  | succ limit ih =>
    obtain ⟨w, m₁, hround⟩ | hstops := L.round_or_stops m
    · obtain ⟨ws, m', hrounds, hend⟩ := ih m₁
      refine ⟨w :: ws, m', .cons hround hrounds, ?_⟩
      simpa only [List.length_cons, Nat.add_right_cancel_iff, Nat.add_lt_add_iff_right] using hend
    · exact ⟨[], m, .nil m, .inr ⟨Nat.succ_pos limit, hstops⟩⟩

/-- Every loop has a course. -/
lemma exists_course (L : Loop) (limit : Nat) (m : Machine) :
    ∃ ws parts r, L.Course limit m ws parts r := by
  obtain ⟨ws, m', hrounds, hall | ⟨hlt, hstops⟩⟩ := L.exists_rounds limit m
  · exact ⟨ws, _, _, .exhausted hrounds hall⟩
  · obtain ⟨tail, r, hstops⟩ := hstops (lastOf .null ws)
    exact ⟨ws, _, _, .stopped hrounds hlt hstops⟩

/-- A loop has one course. -/
lemma Course.unique {limit : Nat} {m : Machine} {ws₁ ws₂ : List Value} {parts₁ parts₂ : List Part}
    {r₁ r₂ : EStateM.Result EvalError Machine Value} (h₁ : L.Course limit m ws₁ parts₁ r₁)
    (h₂ : L.Course limit m ws₂ parts₂ r₂) (hlimit : limit ≤ UInt64.size - 2) :
    ws₁ = ws₂ ∧ parts₁ = parts₂ ∧ r₁ = r₂ := by
  -- the activation ends in one way, and its count tells the number of rounds
  obtain ⟨count₁, hcount₁, hend₁⟩ := h₁.finishes hlimit
  obtain ⟨count₂, hcount₂, hend₂⟩ := h₂.finishes hlimit
  obtain ⟨rfl, rfl, rfl⟩ := Record.mk.inj (hend₁.unique hend₂)
  have hlength : ws₁.length = ws₂.length := Nat.succ.inj (hcount₁.symm.trans hcount₂)
  obtain ⟨m₁, hrounds₁⟩ := h₁.rounds
  obtain ⟨m₂, hrounds₂⟩ := h₂.rounds
  exact ⟨(hrounds₁.unique hrounds₂ hlength).1, rfl, rfl⟩

/-- The condition and the body are evaluated once in each of the rounds. -/
lemma count_alternately (p : Part) (rounds : Nat) : (alternately rounds).count p = rounds := by
  induction rounds with
  | zero => rfl
  | succ rounds ih =>
    rw [alternately_succ, List.count_append, ih, Nat.add_comm]
    cases p <;> rfl

/-- A loop makes as many checks as it may, or one check more than there were rounds. -/
lemma Course.checks_le {limit : Nat} {m : Machine} {ws : List Value} {parts : List Part}
    {r : EStateM.Result EvalError Machine Value} (h : L.Course limit m ws parts r) :
    parts.count .condition ≤ limit := by
  cases h with
  | exhausted rounds hall => exact Nat.le_of_eq ((count_alternately _ _).trans hall)
  | stopped rounds hlt stops =>
    rw [List.count_append, count_alternately]
    cases stops <;> exact hlt

end Loop

/-- A call is made in the context that has one call less left, with the same checks for loops. -/
lemma Limits.context_apply (l : Limits) {depth : Nat} (hdepth : depth < l.callDepth) {f : Function}
    {args : List Value} (hargs : args.length = f.params.length) :
    (l.context depth).apply (.function f) args =
      whileCalling (f.inside (l.context (depth + 1)) args) := by
  have hcalls : l.callDepth - depth = l.callDepth - (depth + 1) + 1 := by omega
  change f.call l.iterations (l.callDepth - depth) args = _
  rw [hcalls, Function.call_succ _ _ hargs]
  rfl

/-- What a loop does.

Let a loop be evaluated on any machine, while any number of calls is under way.  It has exactly one
course, and its result is that of the course.  At most as many checks are made as are allowed.  The
machine of phases, begun with a count of zero, evaluates the same parts and ends with the same
result and machine; it has counted one check more than there were rounds that left the loop going.
The count goes over the limit exactly if as many rounds as there may be checks left the loop going,
and then the body was evaluated as many times and there is an error.  No other loop sees the count:
the condition and the body are evaluated as anywhere else, and the functions called there with the
same limit. -/
theorem Expr.loop_course (l : Limits) (hl : l.iterations < UInt64.size - 1) (depth : Nat)
    (s : Scope) (span : Span) (condition : Expr) (body : Block) (m : Machine) :
    let L := Loop.inScope (l.context depth) s condition body
    let r := (Expr.loop span condition body).eval (l.context depth) s m
    (∃ ws parts, L.Course l.iterations m ws parts r ∧
      (∀ ws' parts' r', L.Course l.iterations m ws' parts' r' →
        ws' = ws ∧ parts' = parts ∧ r' = r) ∧
      parts.count .condition ≤ l.iterations ∧
      ∃ count : UInt64, L.Finishes l.iterations {} m ⟨parts, count, r⟩ ∧
        count.toNat = ws.length + 1 ∧
        (l.iterations < count.toNat ↔ ∃ ws m', L.Rounds ws m m' ∧ ws.length = l.iterations) ∧
        ∀ ws m', L.Rounds ws m m' → ws.length = l.iterations →
          parts.count .body = l.iterations ∧ r = .error .infiniteLoop m') ∧
    ∀ f args, args.length = f.params.length → depth < l.callDepth →
      (l.context depth).apply (.function f) args =
        whileCalling (f.inside (l.context (depth + 1)) args) := by
  intro L r
  refine ⟨?_, fun f args hargs hdepth => l.context_apply hdepth hargs⟩
  have hlimit : l.iterations ≤ UInt64.size - 2 := Nat.le_sub_one_of_lt hl
  obtain ⟨ws, parts, r', hcourse⟩ := L.exists_course l.iterations m
  obtain rfl : r = r' := hcourse.run
  obtain ⟨count, hcount, hend⟩ := hcourse.finishes hlimit
  refine ⟨ws, parts, hcourse, fun ws' parts' r' h => h.unique hcourse hlimit, hcourse.checks_le,
    count, hend, hcount, ⟨fun hover => ?_, ?_⟩, ?_⟩
  · obtain ⟨m', hrounds⟩ := hcourse.rounds
    exact ⟨ws, m', hrounds, by have := hcourse.length_le; omega⟩
  · rintro ⟨ws', m', hrounds, hall⟩
    obtain ⟨rfl, -, -⟩ := (Loop.Course.exhausted hrounds hall).unique hcourse hlimit
    omega
  · intro ws' m' hrounds hall
    obtain ⟨rfl, rfl, hr⟩ := (Loop.Course.exhausted hrounds hall).unique hcourse hlimit
    exact ⟨by rw [Loop.count_alternately, hall], hr.symm⟩

/-- Two checks are allowed, and the body of a loop holds a loop that makes one check each time. The
outer loop goes through its two rounds all the same and then fails. -/
theorem Expr.loop_course_nested :
    let l : Limits := ⟨2, 1⟩
    let inner : Expr := .loop default (.boolean default true) (.mk default [.breakLoop default])
    let body : Block := .mk default [.expr inner, .continueLoop default]
    let L := Loop.inScope (l.context 0) default (.boolean default true) body
    l.iterations < UInt64.size - 1 ∧
      ∃ count : UInt64, count.toNat = 3 ∧ L.Finishes 2 {} {}
        ⟨[.condition, .body, .condition, .body], count, .error .infiniteLoop {}⟩ := by
  intro l inner body L
  have hl : l.iterations < UInt64.size - 1 := by decide
  obtain ⟨⟨ws, parts, -, hunique, -, count, hend, hcount, -, -⟩, -⟩ :=
    Expr.loop_course l hl 0 default default (.boolean default true) body {}
  have hround : L.Round {} (.jump .endelea) {} := ⟨{}, ⟨.boolean true, rfl, rfl, rfl⟩, rfl, rfl⟩
  have hrounds : L.Rounds [.jump .endelea, .jump .endelea] {} {} :=
    .cons hround (.cons hround (.nil {}))
  obtain ⟨rfl, rfl, hr⟩ := hunique _ _ _ (.exhausted hrounds rfl)
  rw [← hr] at hend
  exact ⟨hl, count, hcount, hend⟩

end Lugha
