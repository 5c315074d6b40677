import Lugha.Proofs.Frames
import Lugha.Proofs.Simulation

/-!
# What evaluation does to scopes

The blocks of conditionals and loops run in the scope around them, and a call runs in a new scope
inside the one in which the function was made.  So an evaluation binds new names in the frame of its
own scope and in frames that it makes, and nowhere else: in all other frames it can only change what
a bound name means.  No name is ever unbound.  `Machine.Widens` says this of two machines, with the
frames that may get new names as a parameter.  It composes, also with what a call does, since the
frame that a call may add to was not there before it.

Which frames stand around a frame is written in the scopes that functions carry with them.  It never
changes: as long as all functions agree on the frames around those that are there, so do all
functions that are made.  This is kept by every step, so an evaluation is compared with itself by a
simulation whose values are made in such scopes only.
-/

namespace Lugha

/-! ### Names -/

/-- The names bound after a name is bound. -/
lemma Bindings.binds_insert {α : Type} (name other : String) (v : α) (bs : Bindings α) :
    (bs.insert name v).binds other = (decide (other = name) || bs.binds other) := by
  unfold binds
  rw [get?_insert]
  by_cases h : other = name
  · simp [h]
  · simp [h]

/-- The second machine has the frames of the first one, perhaps with others after them, and binds
all names that were bound. Only the frames in the set `own` bind further names. -/
structure Machine.Widens (own : Nat → Prop) (m m' : Machine) : Prop where
  size : m.frames.size ≤ m'.frames.size
  kept : ∀ i name, (m.frame i).binds name → (m'.frame i).binds name
  same : ∀ i < m.frames.size, ¬ own i →
    ∀ name, (m'.frame i).binds name = (m.frame i).binds name

namespace Machine.Widens

variable {own own' : Nat → Prop} {m m₁ m₂ m₃ : Machine}

/-- Machines with the same frames. -/
lemma of_frames_eq (h : m₁.frames = m.frames) : m.Widens own m₁ := by
  have hframe (i : Nat) : m₁.frame i = m.frame i := by rw [frame, frame, h]
  refine ⟨Nat.le_of_eq (by rw [h]), fun i name hbound => ?_, fun i _ _ name => ?_⟩
  · rw [hframe]
    exact hbound
  · rw [hframe]

/-- A machine does not differ from itself. -/
lemma refl (m : Machine) : m.Widens own m := of_frames_eq rfl

/-- One change after another. The frames that may get names later may have got them at once, or
were not there. -/
lemma step (h : m₁.Widens own m₂) (h' : m₂.Widens own' m₃)
    (hown : ∀ i < m₁.frames.size, own' i → own i) : m₁.Widens own m₃ where
  size := Nat.le_trans h.size h'.size
  kept i name hbound := h'.kept i name (h.kept i name hbound)
  same i hi hnot name := by
    have hthere : i < m₂.frames.size := Nat.lt_of_lt_of_le hi h.size
    have hother : ¬ own' i := fun hi' => hnot (hown i hi hi')
    rw [h'.same i hthere hother, h.same i hi hnot]

/-- Changes to the same frames compose. -/
lemma trans (h : m₁.Widens own m₂) (h' : m₂.Widens own m₃) : m₁.Widens own m₃ :=
  h.step h' fun _ _ => id

/-- More frames may get names. -/
lemma mono (h : m₁.Widens own m₂) (hown : ∀ i, own i → own' i) : m₁.Widens own' m₂ :=
  ⟨h.size, h.kept, fun i hi hnot => h.same i hi (mt (hown i) hnot)⟩

/-- Binding a name in one of the frames that may get names, or changing what it means in a frame
that binds it. -/
lemma put (m : Machine) {i : Nat} {name : String} (v : Value)
    (h : own i ∨ (m.frame i).binds name) : m.Widens own (m.put i name v) where
  size := by simp [Machine.put]
  kept j other hbound := by
    rw [frame_put]
    split
    · rw [Bindings.binds_insert, hbound, Bool.or_true]
    · exact hbound
  same j hj hnot other := by
    rw [frame_put]
    split
    · next hij =>
      obtain ⟨rfl, -⟩ := hij
      have hbound : (m.frame i).binds name := h.resolve_left hnot
      rw [Bindings.binds_insert]
      by_cases heq : other = name
      · rw [heq, hbound, Bool.or_true]
      · rw [decide_eq_false heq, Bool.false_or]
    · rfl

/-- Making a scope. -/
lemma enclose (m : Machine) (s : Scope) : m.Widens own (m.enclose s).2 := by
  refine ⟨by simp [Machine.enclose], fun i name hbound => ?_, fun i _ _ name => ?_⟩
  · rw [frame_enclose]
    exact hbound
  · rw [frame_enclose]

end Machine.Widens

/-- The frame in which a name is found binds it. -/
lemma Machine.binds_of_owner? {m : Machine} {name : String} {i : Nat} :
    ∀ {chain : List Nat}, m.owner? name chain = some i → (m.frame i).binds name
  | [], h => nomatch h
  | j :: outer, h => by
    unfold Machine.owner? at h
    split at h
    · next hbound =>
      cases h
      exact hbound
    · exact Machine.binds_of_owner? h

/-- Assigning a name binds nothing new. -/
lemma Machine.widens_assign {own : Nat → Prop} (m : Machine) (s : Scope) (name : String)
    (v : Value) : m.Widens own (m.assign s name v).2 := by
  unfold Machine.assign
  split
  · next howner => exact .put m v (.inr (binds_of_owner? howner))
  · exact .refl m

/-! ### Runs -/

/-- The runs that bind new names in given frames, and in new ones, only. -/
def Run.naming (own : Nat → Prop) : Run.Congruence :=
  .ofOrder (Machine.Widens own) .refl .trans

/-- A scope binds names in its own frame. -/
lemma Scope.naming (s : Scope) : (Run.naming (· = s.frame)).InScope s :=
  Run.Congruence.inScope_ofOrder (fun m _ v => .put m v (.inl rfl))
    (fun m => m.widens_assign s) fun _ => .of_frames_eq rfl

/-- Builtins bind no names. -/
lemma Builtin.widens_apply {own : Nat → Prop} (b : Builtin) (args : List Value) (m : Machine) :
    m.Widens own (.ofResult (b.apply args m)) :=
  b.changes_apply .refl (fun _ _ => .of_frames_eq rfl) (fun _ _ _ => .of_frames_eq rfl) args m

/-- Entering a function binds names in a new frame. -/
lemma Function.widens_enter (f : Function) (args : List Value) (m : Machine) :
    m.Widens (fun _ => False) (f.enter args m).2 := by
  refine List.foldlRecOn (motive := m.Widens fun _ => False) (f.params.zip args) _
    (.enclose m f.scope) fun m₁ hm b _ => ?_
  have hset : m₁.Widens (· = m.frames.size) (m₁.set (m.enclose f.scope).1 b.1 b.2) :=
    .put m₁ b.2 (.inl rfl)
  exact hm.step hset fun i hi hnew => absurd hnew (Nat.ne_of_lt hi)

/-- The body of a function binds names in its own frame, which was not there before the call. -/
lemma Function.widens_inside {cx : Context} (hcx : (Run.naming fun _ => False).Contexts cx cx)
    (f : Function) (args : List Value) (m : Machine) :
    m.Widens (fun _ => False) (.ofResult (f.inside cx args m)) := by
  have hcontext : (Run.naming (· = (f.enter args m).1.frame)).Contexts cx cx :=
    ⟨rfl, fun callee args m => (hcx.apply callee args m).mono fun _ => False.elim⟩
  have hbody := (Run.naming _).settled
    ((Run.naming _).block hcontext (f.enter args m).1.naming f.body) (f.enter args m).2
  have hnew : (f.enter args m).1.frame = m.frames.size := rfl
  refine (f.widens_enter args m).step hbody fun i hi hown => ?_
  exact absurd (hown.trans hnew) (Nat.ne_of_lt hi)

/-- Counting a call touches no frame. -/
lemma Machine.Widens.whileCalling {own : Nat → Prop} {r : Run Value}
    (hr : ∀ m, Machine.Widens own m (.ofResult (r m))) (m : Machine) :
    m.Widens own (.ofResult (whileCalling r m)) := by
  have hcounted : m.Widens own { m with depth := m.depth + 1 } := .of_frames_eq rfl
  have hm := hcounted.trans (hr { m with depth := m.depth + 1 })
  unfold Lugha.whileCalling
  cases h : r { m with depth := m.depth + 1 } with
  | ok v m₁ | error e m₁ =>
    rw [h] at hm
    exact hm.trans (.of_frames_eq rfl)

/-- A call binds no names in the frames that are there. -/
lemma Function.widens_call (iterations calls : Nat) (f : Function) (args : List Value)
    (m : Machine) :
    m.Widens (fun _ => False) (.ofResult (f.call iterations calls args m)) := by
  induction calls generalizing f args m with
  | zero =>
    by_cases hlength : args.length = f.params.length
    · rw [Function.call_zero _ hlength]
      exact .refl m
    · rw [Function.call_of_length_ne _ _ hlength]
      exact .refl m
  | succ calls ih =>
    by_cases hlength : args.length = f.params.length
    · rw [Function.call_succ _ _ hlength, Function.perform_eq]
      have hcx : (Run.naming fun _ => False).Contexts
          ⟨iterations, Value.callBy (Function.call iterations calls)⟩
          ⟨iterations, Value.callBy (Function.call iterations calls)⟩ :=
        ⟨rfl, Run.Congruence.callBy _ ih Builtin.widens_apply⟩
      exact Machine.Widens.whileCalling (f.widens_inside hcx args) m
    · rw [Function.call_of_length_ne _ _ hlength]
      exact .refl m

/-- The calls of a program bind no names in the frames that are there. -/
lemma Limits.naming (l : Limits) (depth : Nat) (own : Nat → Prop) :
    (Run.naming own).Contexts (l.context depth) (l.context depth) := by
  have hcall (f : Function) (args : List Value) (m : Machine) :
      m.Widens own (.ofResult (f.call l.iterations (l.callDepth - depth) args m)) :=
    (f.widens_call _ _ args m).mono fun _ => False.elim
  exact ⟨rfl, (Run.naming own).callBy hcall Builtin.widens_apply⟩

/-! ### The frames around a frame -/

/-- The functions in a value were made in scopes with a given property. -/
def Value.MadeIn (good : Scope → Prop) : Value → Prop
  | .function f => good f.scope
  | .returned v => v.MadeIn good
  | _ => True

/-- In a scope, each of the first `n` frames stands inside those that `outer` gives for it. -/
def Scope.Linked (outer : Nat → List Nat) (n : Nat) (s : Scope) : Prop :=
  ∀ i rest, i :: rest <:+ s.chain → i < n → rest = outer i

/-- All functions that a machine binds were made in scopes in which each of the first `n` frames
stands inside those that `outer` gives for it. -/
def Machine.Linked (outer : Nat → List Nat) (n : Nat) (m : Machine) : Prop :=
  ∀ i, ∀ b ∈ m.frame i, b.2.MadeIn (Scope.Linked outer n)

/-- A scope with a new frame inside another one. -/
lemma Scope.Linked.enclosed {outer : Nat → List Nat} {n i : Nat} {s : Scope}
    (h : s.Linked outer n) (hi : n ≤ i) : Scope.Linked outer n ⟨i, s.chain⟩ := by
  intro j rest hsuffix hj
  rcases List.suffix_cons_iff.1 hsuffix with heq | hsuffix
  · obtain ⟨rfl, -⟩ := List.cons.inj heq
    exact absurd hj (Nat.not_lt.2 hi)
  · exact h j rest hsuffix hj

/-- A literal holds no function. -/
lemma Value.madeIn_of_isLiteral {good : Scope → Prop} {v : Value} (h : v.isLiteral) :
    v.MadeIn good := by
  cases v <;> trivial

/-- An evaluation compared with itself, on a machine with at least `n` frames whose functions were
made in good scopes. -/
def Simulation.madeIn (good : Scope → Prop) (n : Nat) : Simulation where
  value v v' := v = v' ∧ v.MadeIn good
  result v v' := v = v' ∧ v.MadeIn good
  scope s s' := s = s' ∧ good s
  body := Eq
  machine m m' := m = m' ∧ m.Holds (fun _ => True) (Value.MadeIn good) ∧ n ≤ m.frames.size
  cut _ _ _ := False

namespace Simulation.madeIn

variable {good : Scope → Prop} {n : Nat}

/-- The operands of a call are the same and were made in good scopes. -/
lemma operands {args args' : List Value} (h : List.Forall₂ (madeIn good n).operand args args') :
    args = args' ∧ ∀ v ∈ args, v.MadeIn good := by
  induction h with
  | nil => exact ⟨rfl, fun v hv => nomatch hv⟩
  | cons hv _ ih =>
    obtain ⟨⟨rfl, hmade⟩, -⟩ := hv
    obtain ⟨rfl, hrest⟩ := ih
    exact ⟨rfl, List.forall_mem_cons.2 ⟨hmade, hrest⟩⟩

/-- Builtins yield literals and leave the frames alone. -/
lemma builtin_matches (b : Builtin) (args : List Value) :
    (madeIn good n).Matches (madeIn good n).result (b.apply args) (b.apply args) := by
  rintro m m' ⟨rfl, hm, hn⟩
  have hsame {m₁ : Machine} (h : m₁.frames = m.frames) : (madeIn good n).machine m₁ m₁ :=
    ⟨rfl, hm.congr h, by rw [h]; exact hn⟩
  have hliteral {v : Value} (h : v.isLiteral) : (madeIn good n).result v v :=
    ⟨rfl, Value.madeIn_of_isLiteral h⟩
  cases b with
  | andika => exact .ok (hliteral rfl) (hsame rfl)
  | hakiki =>
    unfold Builtin.apply Builtin.assert
    dsimp only
    split
    · exact .error (hsame rfl)
    · split
      · exact .ok (hliteral rfl) (hsame rfl)
      · split
        · exact .ok (hliteral rfl) (hsame rfl)
        · exact .error (hsame rfl)
  | aina =>
    unfold Builtin.apply
    dsimp only
    split
    · exact .ok (hliteral rfl) (hsame rfl)
    · exact .error (hsame rfl)

/-- Evaluation makes functions in good scopes only, if the scopes of calls are good. -/
lemma lawful (hgood : ∀ {s : Scope} {i : Nat}, good s → n ≤ i → good ⟨i, s.chain⟩) :
    (madeIn good n).Lawful where
  literal h := ⟨rfl, Value.madeIn_of_isLiteral h⟩
  jump _ := ⟨rfl, trivial⟩
  returned := by
    rintro v v' ⟨⟨rfl, hv⟩, -⟩
    exact ⟨rfl, hv⟩
  settled h := ⟨Value.returned.inj h.1, h.2⟩
  yielded h := h.1
  result := id
  alike h := h.1 ▸ .refl _
  same hv hw := by rw [hv.1.1, hw.1.1]
  resolve := by
    rintro s s' name ⟨rfl, -⟩ m m' ⟨rfl, hm, hn⟩
    unfold Scope.resolve
    split
    · next hget => exact .ok ⟨rfl, hm.find? (fun _ _ => trivial) hget⟩ ⟨rfl, hm, hn⟩
    · split
      · exact .ok ⟨rfl, trivial⟩ ⟨rfl, hm, hn⟩
      · exact .error ⟨rfl, hm, hn⟩
  makeFunction := by
    rintro s s' name name' params params' b b' ⟨rfl, hs⟩ hname hparams - hbody m m' ⟨rfl, hm, hn⟩
    cases hbody
    unfold Scope.makeFunction
    rw [hname, hparams]
    exact .ok ⟨rfl, hs⟩ ⟨rfl, hm.congr rfl, hn⟩
  set := by
    rintro s s' v v' m m' name ⟨rfl, -⟩ ⟨⟨rfl, hv⟩, -⟩ ⟨rfl, hm, hn⟩
    exact ⟨rfl, hm.put _ _ hv, by simpa [Machine.set, Machine.put] using hn⟩
  assign := by
    rintro s s' v v' name ⟨rfl, -⟩ ⟨⟨rfl, hv⟩, -⟩ m m' ⟨rfl, hm, hn⟩
    unfold Scope.assign Machine.assign
    cases m.owner? name s.chain with
    | none => exact .error ⟨rfl, hm, hn⟩
    | some i => exact .ok ⟨rfl, trivial⟩ ⟨rfl, hm.put _ _ hv, by simpa [Machine.put] using hn⟩
  builtin := by
    intro args args' b hargs
    obtain ⟨rfl, -⟩ := operands hargs
    exact builtin_matches b args
  body_like := fun hf => by
    cases hf.1
    exact Block.like_refl (fun _ => rfl) _
  enter := by
    rintro f f' args args' m m' ⟨hf, hmade⟩ hargs - ⟨rfl, hm, hn⟩
    cases hf
    obtain ⟨rfl, hmadeArgs⟩ := operands hargs
    have hcounted : ({ m with depth := m.depth + 1 } : Machine).Holds (fun _ => True)
        (Value.MadeIn good) := hm.congr rfl
    obtain ⟨-, hentered⟩ := hcounted.enter (fun _ _ => trivial) hmadeArgs
    have hsize := (f.widens_enter args { m with depth := m.depth + 1 }).size
    exact ⟨⟨rfl, hgood hmade hn⟩, rfl, hentered, Nat.le_trans hn hsize⟩
  leave := by
    rintro m m' ⟨rfl, hm, hn⟩
    exact ⟨rfl, hm.congr rfl, hn⟩
  cut_leave := id
  cut_grows h _ := h

/-- Evaluation always runs in step with itself. -/
lemma steady (hgood : ∀ {s : Scope} {i : Nat}, good s → n ≤ i → good ⟨i, s.chain⟩) :
    (madeIn good n).Steady where
  toLawful := lawful hgood
  error _ := ⟨rfl, trivial⟩
  depth h := by rw [h.1]
  uncut h := h

end Simulation.madeIn

/-! ### Evaluation -/

/-- What an evaluation in a scope does to the scopes that are there before it. No name is unbound,
and names are bound in the frame of the scope itself only. All functions agree afterwards on the
frames around each frame that was there, if they and the scope did so before. -/
structure KeepsScopes (s : Scope) (m : Machine) (after : Value × Machine) : Prop where
  widens : m.Widens (· = s.frame) after.2
  linked : ∀ outer, s.Linked outer m.frames.size → m.Linked outer m.frames.size →
    after.1.MadeIn (Scope.Linked outer m.frames.size) ∧ after.2.Linked outer m.frames.size

/-- A run keeps scopes if it runs in step with itself and binds names in its own frame. -/
lemma KeepsScopes.of_matches {s : Scope} {m : Machine} {r : Run Value}
    (hnaming : (Run.naming (· = s.frame)).rel r r)
    (hmatches : ∀ {good : Scope → Prop} {n : Nat}, (Simulation.madeIn good n).Lawful → good s →
      (Simulation.madeIn good n).Matches (Simulation.madeIn good n).value r r) :
    KeepsScopes s m (r.finish m) := by
  refine ⟨?_, fun outer hs hm => ?_⟩
  · rw [Run.finish_machine]
    exact hnaming m
  · have hS : (Simulation.madeIn (Scope.Linked outer m.frames.size) m.frames.size).Steady :=
      Simulation.madeIn.steady fun h hi => h.enclosed hi
    have hstart : (Simulation.madeIn (Scope.Linked outer m.frames.size) m.frames.size).machine m m :=
      ⟨rfl, ⟨fun i _ => hm i, fun _ _ => trivial⟩, Nat.le_refl _⟩
    obtain ⟨hvalue, -, hframes, -⟩ :=
      hS.finish (fun e => hS.error e) (hmatches hS.toLawful hs) hstart
    exact ⟨hvalue.2, fun i => hframes.bound i trivial⟩

/-- Evaluation keeps scopes.

Let an expression, a statement, a block or a program be evaluated in any scope of any machine, and
end in any way. Then every frame that was there before still binds all its names, and no others,
except that the frame of the scope itself may bind more; and the frames around each frame are those
that were around it before. A call of a function binds no name in any frame that was there before
it. -/
theorem eval_keepsScopes (l : Limits) (s : Scope) (m : Machine) :
    (∀ e : Expr, KeepsScopes s m (e.run l s m)) ∧
    (∀ stmt : Stmt, KeepsScopes s m (stmt.run l s m)) ∧
    (∀ b : Block, KeepsScopes s m (Run.finish (b.eval (l.context m.depth) s) m)) ∧
    (∀ p : Program, KeepsScopes s m (p.run l s m)) ∧
    (∀ (f : Function) (args : List Value), m.Widens (fun _ => False)
      (Run.finish ((l.context m.depth).apply (.function f) args) m).2) := by
  have hcx := l.naming m.depth (· = s.frame)
  refine ⟨fun e => .of_matches ((Run.naming _).expr hcx s.naming e) fun hS hs => ?_,
    fun stmt => .of_matches ((Run.naming _).statement hcx s.naming stmt) fun hS hs => ?_,
    fun b => .of_matches ((Run.naming _).block hcx s.naming b) fun hS hs => ?_,
    fun p => .of_matches ((Run.naming _).program hcx s.naming p) fun hS hs => ?_,
    fun f args => ?_⟩
  · exact e.eval_matches hS (l.contexts_self hS m.depth) ⟨rfl, hs⟩ e (e.like_refl fun _ => rfl)
  · exact stmt.eval_matches hS (l.contexts_self hS m.depth) ⟨rfl, hs⟩ stmt
      (stmt.like_refl fun _ => rfl)
  · exact b.eval_matches hS (l.contexts_self hS m.depth) ⟨rfl, hs⟩ b (b.like_refl fun _ => rfl)
  · exact Program.eval_matches hS (l.contexts_self hS m.depth) ⟨rfl, hs⟩
      (Stmt.likeList_refl (fun _ => rfl) _)
  · rw [Run.finish_machine]
    exact f.widens_call _ _ args m

/-- A function that was made inside another scope declares a name of its own and changes one of
that scope. Binding what it returns adds a name to the scope of the statement, and to no other. -/
theorem eval_keepsScopes_closure :
    let body : Block := .mk .synthetic
      [.bind .synthetic ⟨"x", .synthetic⟩ (.number .synthetic 5),
       .assign .synthetic ⟨"y", .synthetic⟩ (.name .synthetic "x")]
    let f : Function := ⟨0, some "f", [], body, ⟨1, [0]⟩⟩
    let m : Machine := { frames := #[[("f", .function f)], [("y", .null)]], functions := 1 }
    let stmt : Stmt :=
      .bind .synthetic ⟨"z", .synthetic⟩ (.call .synthetic (.name .synthetic "f") [])
    let after := stmt.run ⟨1, 1⟩ ⟨0, []⟩ m
    let outer (i : Nat) : List Nat := if i = 1 then [0] else []
    Scope.Linked outer 2 ⟨0, []⟩ ∧ m.Linked outer 2 ∧ KeepsScopes ⟨0, []⟩ m after ∧
      after.2.Linked outer 2 ∧ (after.2.frame 0).names = ["f", "z"] ∧
      (after.2.frame 1).names = ["y"] ∧ (after.2.frame 2).names = ["x"] := by
  intro body f m stmt after outer
  have hkeeps := (eval_keepsScopes ⟨1, 1⟩ ⟨0, []⟩ m).2.1 stmt
  have htop : Scope.Linked outer 2 ⟨0, []⟩ := by
    intro i rest hsuffix _
    rcases List.suffix_cons_iff.1 hsuffix with heq | hnil
    · obtain ⟨rfl, rfl⟩ := List.cons.inj heq
      rfl
    · exact absurd (List.suffix_nil.1 hnil) (List.cons_ne_nil _ _)
  have hinner : Scope.Linked outer 2 ⟨1, [0]⟩ := by
    intro i rest hsuffix hi
    rcases List.suffix_cons_iff.1 hsuffix with heq | hsuffix
    · obtain ⟨rfl, rfl⟩ := List.cons.inj heq
      rfl
    · exact htop i rest hsuffix hi
  have hm : m.Linked outer 2 := by
    intro i b hb
    match i with
    | 0 =>
      cases List.mem_singleton.1 hb
      exact hinner
    | 1 =>
      cases List.mem_singleton.1 hb
      trivial
    | i + 2 => cases hb
  refine ⟨htop, hm, hkeeps, (hkeeps.linked outer htop hm).2, ?_, ?_, ?_⟩ <;> decide +kernel

end Lugha
