import Lugha.Proofs.ByteOrder
import Lugha.Proofs.ScopeNames

/-!
# Laws of shared scopes

A frame may lie in many scopes: a scope shares the frames around it with all scopes that were made
inside them.  So binding or assigning a name through one scope is seen through others.  A scope
resolves a name to the innermost of its frames that binds it.  What is bound or assigned through a
scope is seen through exactly those scopes that resolve the name to the same frame, and everything
else is as before.

`Forest` has the machines that come about by making scopes, binding names and assigning them, in any
order, with the scopes that were made.  In a forest every frame of a scope is again the frame of a
scope, and of one only, so that a frame stands for the scope.
-/

namespace Lugha

/-! ### Bindings in order -/

namespace Bindings

variable {α : Type}

/-- A name is bound by the first binding or by a later one. -/
lemma binds_cons (name : String) (b : String × α) (rest : Bindings α) :
    binds name (b :: rest) = (decide (name = b.1) || binds name rest) := by
  unfold binds
  rw [get?]
  by_cases h : b.1 = name
  · simp [h]
  · simp [h, Ne.symm h]

/-- The bound names are listed. -/
lemma mem_names {name : String} {bs : Bindings α} : name ∈ bs.names ↔ bs.binds name := by
  induction bs with
  | nil => simp [names, binds, get?]
  | cons b rest ih =>
    rw [binds_cons, Bool.or_eq_true, decide_eq_true_iff, ← ih]
    exact List.mem_cons

/-- A name that comes before all others. -/
lemma lt_names_insert {name other : String} {v : α} {bs : Bindings α} (h : other < name)
    (hbs : ∀ n ∈ bs.names, other < n) : ∀ n ∈ (bs.insert name v).names, other < n := by
  intro n hn
  obtain ⟨b, hb, rfl⟩ := List.mem_map.1 hn
  rcases mem_insert hb with rfl | hb
  · exact h
  · exact hbs b.1 (List.mem_map_of_mem hb)

/-- Binding a name keeps the order of names. -/
lemma pairwise_names_insert (name : String) (v : α) {bs : Bindings α}
    (h : bs.names.Pairwise (· < ·)) : (bs.insert name v).names.Pairwise (· < ·) := by
  induction bs with
  | nil => exact List.pairwise_singleton _ _
  | cons b rest ih =>
    obtain ⟨hfirst, hrest⟩ := List.pairwise_cons.1 h
    unfold insert
    split
    · next heq => exact List.pairwise_cons.2 ⟨heq ▸ hfirst, hrest⟩
    · next hne =>
      split
      · next hlt =>
        refine List.pairwise_cons.2 ⟨?_, h⟩
        intro n hn
        rcases List.mem_cons.1 hn with rfl | hn
        · exact hlt
        · exact lt_trans hlt (hfirst n hn)
      · next hge =>
        have hlt : b.1 < name := lt_of_le_of_ne (not_lt.1 hge) hne
        exact List.pairwise_cons.2 ⟨lt_names_insert hlt hfirst, ih hrest⟩

/-- Adding bindings keeps the order of names. -/
lemma pairwise_names_union {bs : Bindings α} (h : bs.names.Pairwise (· < ·)) (cs : Bindings α) :
    (bs.union cs).names.Pairwise (· < ·) :=
  List.foldlRecOn (motive := fun all : Bindings α => all.names.Pairwise (· < ·)) cs _ h
    fun _ hall b _ => pairwise_names_insert b.1 b.2 hall

/-- The names that are bound after bindings are added. -/
lemma binds_union (bs cs : Bindings α) (name : String) :
    (bs.union cs).binds name = (bs.binds name || cs.binds name) := by
  induction cs generalizing bs with
  | nil => simp [union, binds, get?]
  | cons c rest ih =>
    have hall : bs.union (c :: rest) = (bs.insert c.1 c.2).union rest := rfl
    rw [hall, ih, binds_insert, binds_cons, Bool.or_comm (decide _), Bool.or_assoc]

end Bindings

/-! ### Names along the frames of a scope -/

namespace Machine

variable {m : Machine} {name : String}

/-- A name means something if one of the frames binds it. -/
lemma isSome_find? : ∀ {chain : List Nat},
    (m.find? name chain).isSome ↔ ∃ i ∈ chain, (m.frame i).binds name
  | [] => by simp [find?]
  | i :: outer => by
    have ih : (m.find? name outer).isSome ↔ ∃ j ∈ outer, (m.frame j).binds name := isSome_find?
    rw [find?, List.exists_mem_cons_iff, ← ih, Bindings.binds]
    cases Bindings.get? name (m.frame i) <;> simp

/-- The names of a scope are those that mean something. -/
lemma mem_names {s : Scope} : name ∈ m.names s ↔ (m.get? s name).isSome := by
  have hfold (chain : List Nat) (all : Bindings Value) :
      (chain.foldl (fun all i => all.union (m.frame i)) all).binds name ↔
        all.binds name ∨ ∃ i ∈ chain, (m.frame i).binds name := by
    induction chain generalizing all with
    | nil => simp
    | cons i outer ih =>
      rw [List.foldl_cons, ih, Bindings.binds_union, Bool.or_eq_true, List.exists_mem_cons_iff,
        or_assoc]
  rw [names, Bindings.mem_names, hfold, get?, isSome_find?]
  simp [Bindings.binds, Bindings.get?]

/-- The names of a scope are in increasing order. -/
lemma pairwise_names (m : Machine) (s : Scope) : (m.names s).Pairwise (· < ·) :=
  List.foldlRecOn (motive := fun all : Bindings Value => all.names.Pairwise (· < ·)) s.chain _
    List.Pairwise.nil fun _ hall i _ => Bindings.pairwise_names_union hall (m.frame i)

/-- The frame in which a name is found is the first one that binds it. -/
lemma owner?_eq_some_iff {i : Nat} : ∀ {chain : List Nat}, m.owner? name chain = some i ↔
    ∃ inner outer, chain = inner ++ i :: outer ∧ (m.frame i).binds name ∧
      ∀ j ∈ inner, (m.frame j).binds name = false
  | [] => by simp [owner?]
  | j :: rest => by
    rw [owner?]
    cases hj : (m.frame j).binds name with
    | true =>
      rw [if_pos rfl, Option.some.injEq]
      constructor
      · rintro rfl
        exact ⟨[], rest, rfl, hj, List.forall_mem_nil _⟩
      · rintro ⟨_ | ⟨k, inner⟩, outer, heq, hi, hinner⟩
        · exact (List.cons.inj heq).1
        · obtain ⟨rfl, -⟩ := List.cons.inj heq
          rw [hinner j List.mem_cons_self] at hj
          cases hj
    | false =>
      rw [if_neg Bool.false_ne_true, owner?_eq_some_iff]
      constructor
      · rintro ⟨inner, outer, rfl, hi, hinner⟩
        exact ⟨j :: inner, outer, rfl, hi, List.forall_mem_cons.2 ⟨hj, hinner⟩⟩
      · rintro ⟨_ | ⟨k, inner⟩, outer, heq, hi, hinner⟩
        · obtain ⟨rfl, -⟩ := List.cons.inj heq
          rw [hi] at hj
          cases hj
        · obtain ⟨rfl, rfl⟩ := List.cons.inj heq
          exact ⟨inner, outer, rfl, hi, fun k hk => hinner k (List.mem_cons_of_mem _ hk)⟩

/-- A name means something if it is found in a frame. -/
lemma isSome_owner? : ∀ {chain : List Nat},
    (m.owner? name chain).isSome ↔ (m.find? name chain).isSome
  | [] => by simp [owner?, find?]
  | i :: outer => by
    have ih : (m.owner? name outer).isSome ↔ (m.find? name outer).isSome := isSome_owner?
    rw [owner?, find?, Bindings.binds]
    cases Bindings.get? name (m.frame i) with
    | none => simpa using ih
    | some v => simp

/-- After a name is bound in a frame, it has the new meaning where it is found in that frame. All
other meanings are as before. -/
lemma find?_put {i : Nat} (hi : i < m.frames.size) (name other : String) (v : Value) :
    ∀ chain : List Nat, (m.put i name v).find? other chain =
      if other = name ∧ (m.put i name v).owner? name chain = some i then some v
      else m.find? other chain
  | [] => by simp [find?, owner?]
  | j :: outer => by
    have ih := find?_put hi name other v outer
    rw [find?, find?, owner?, frame_put]
    by_cases hj : i = j
    · subst hj
      rw [if_pos ⟨rfl, hi⟩, Bindings.get?_insert, Bindings.binds_insert]
      by_cases hname : other = name
      · simp [hname]
      · rw [if_neg hname, ih]
        simp [hname]
    · rw [if_neg fun h => hj h.1, ih]
      by_cases hname : other = name
      · subst hname
        rw [Bindings.binds]
        cases Bindings.get? other (m.frame j) <;> simp [Ne.symm hj]
      · simp [hname]

/-- Changing what a name means does not change where it is found. -/
lemma owner?_put {i : Nat} (hi : (m.frame i).binds name) (v : Value) (chain : List Nat) :
    (m.put i name v).owner? name chain = m.owner? name chain := by
  have hbinds (j : Nat) : ((m.put i name v).frame j).binds name = (m.frame j).binds name := by
    rw [frame_put]
    split
    · next hij =>
      obtain ⟨rfl, -⟩ := hij
      rw [Bindings.binds_insert, hi, Bool.or_true]
    · rfl
  induction chain with
  | nil => rfl
  | cons j outer ih => rw [owner?, owner?, hbinds, ih]

end Machine

/-! ### Forests of scopes -/

/-- Machines that come about by making scopes, binding names and assigning them, in any order and
from any machine on, with the scopes that were made. -/
inductive Forest : Machine → List Scope → Prop
  | start (m : Machine) : Forest m []
  | newTop {m : Machine} {scopes : List Scope} (h : Forest m scopes) :
      Forest m.newTop.2 (m.newTop.1 :: scopes)
  | enclose {m : Machine} {scopes : List Scope} {s : Scope} (h : Forest m scopes)
      (hs : s ∈ scopes) : Forest (m.enclose s).2 ((m.enclose s).1 :: scopes)
  | set {m : Machine} {scopes : List Scope} {s : Scope} (h : Forest m scopes) (hs : s ∈ scopes)
      (name : String) (v : Value) : Forest (m.set s name v) scopes
  | assign {m : Machine} {scopes : List Scope} {s : Scope} (h : Forest m scopes)
      (hs : s ∈ scopes) (name : String) (v : Value) : Forest (m.assign s name v).2 scopes

/-- A scope resolves a name to another one: this one stands at the end of its frames and binds the
name, and no frame before it does. -/
def Machine.Resolves (m : Machine) (d : Scope) (name : String) (e : Scope) : Prop :=
  ∃ inner, d.chain = inner ++ e.chain ∧ (m.frame e.frame).binds name ∧
    ∀ i ∈ inner, (m.frame i).binds name = false

/-- What a name means in a scope changes to a value under a condition only. -/
def Machine.ChangesTo (m m' : Machine) (d : Scope) (name : String) (v : Value)
    (condition : Prop) : Prop :=
  (condition → m'.get? d name = some v) ∧ (¬ condition → m'.get? d name = m.get? d name)

/-- How scopes share frames: all frames are there, each frame of a scope belongs to a scope with the
frames around it, and no two scopes have the same frame. -/
structure Machine.Shares (m : Machine) (scopes : List Scope) : Prop where
  there : ∀ s ∈ scopes, ∀ i ∈ s.chain, i < m.frames.size
  around : ∀ s ∈ scopes, ∀ i outer, i :: outer <:+ s.chain → ⟨i, outer⟩ ∈ scopes
  one : ∀ s ∈ scopes, ∀ t ∈ scopes, s.frame = t.frame → s = t

namespace Machine.Shares

variable {m : Machine} {scopes : List Scope}

/-- The frames that are there do not depend on what they bind. -/
lemma of_size_eq {m' : Machine} (h : m.Shares scopes) (hsize : m'.frames.size = m.frames.size) :
    m'.Shares scopes :=
  ⟨fun s hs i hi => hsize ▸ h.there s hs i hi, h.around, h.one⟩

/-- A new scope whose frame is a new one, around which stand the frames of another scope or none. -/
lemma push {m' : Machine} (h : m.Shares scopes) (hsize : m'.frames.size = m.frames.size + 1)
    {outer : List Nat} (houter : outer = [] ∨ ∃ s ∈ scopes, outer = s.chain) :
    m'.Shares (⟨m.frames.size, outer⟩ :: scopes) := by
  have hnew (s : Scope) (hs : s ∈ scopes) : s.frame ≠ m.frames.size :=
    Nat.ne_of_lt (h.there s hs s.frame List.mem_cons_self)
  constructor
  · intro s hs i hi
    rcases List.mem_cons.1 hs with rfl | hs
    · rcases List.mem_cons.1 hi with rfl | hi
      · exact hsize ▸ Nat.lt_succ_self _
      · rcases houter with rfl | ⟨t, ht, rfl⟩
        · cases hi
        · have := h.there t ht i hi
          omega
    · have := h.there s hs i hi
      omega
  · intro s hs i rest hsuffix
    rcases List.mem_cons.1 hs with rfl | hs
    · rcases List.suffix_cons_iff.1 hsuffix with heq | hsuffix
      · obtain ⟨rfl, rfl⟩ := List.cons.inj heq
        exact List.mem_cons_self
      · rcases houter with rfl | ⟨t, ht, rfl⟩
        · cases List.suffix_nil.1 hsuffix
        · exact List.mem_cons_of_mem _ (h.around t ht i rest hsuffix)
    · exact List.mem_cons_of_mem _ (h.around s hs i rest hsuffix)
  · intro s hs t ht hframe
    rcases List.mem_cons.1 hs with rfl | hs <;> rcases List.mem_cons.1 ht with rfl | ht
    · rfl
    · exact absurd hframe.symm (hnew t ht)
    · exact absurd hframe (hnew s hs)
    · exact h.one s hs t ht hframe

/-- A scope resolves a name to the scope of the frame in which the name is found. -/
lemma resolves_iff (h : m.Shares scopes) {m' : Machine} {d e : Scope} (hd : d ∈ scopes)
    (he : e ∈ scopes) {name : String} :
    m'.Resolves d name e ↔ m'.owner? name d.chain = some e.frame := by
  rw [Machine.owner?_eq_some_iff]
  constructor
  · rintro ⟨inner, hchain, hbinds, hinner⟩
    exact ⟨inner, e.outer, hchain, hbinds, hinner⟩
  · rintro ⟨inner, outer, hchain, hbinds, hinner⟩
    have hmem : (⟨e.frame, outer⟩ : Scope) ∈ scopes :=
      h.around d hd _ _ ⟨inner, hchain.symm⟩
    have heq : (⟨e.frame, outer⟩ : Scope) = e := h.one _ hmem e he rfl
    refine ⟨inner, ?_, hbinds, hinner⟩
    rw [hchain, ← heq]
    rfl

/-- A name that is found in a frame of a scope is resolved to a scope. -/
lemma exists_resolves (h : m.Shares scopes) {d : Scope} (hd : d ∈ scopes) {name : String} {i : Nat}
    (hi : m.owner? name d.chain = some i) : ∃ o ∈ scopes, o.frame = i ∧ m.Resolves d name o := by
  obtain ⟨inner, outer, hchain, hbinds, hinner⟩ := Machine.owner?_eq_some_iff.1 hi
  exact ⟨⟨i, outer⟩, h.around d hd _ _ ⟨inner, hchain.symm⟩, rfl, inner, hchain, hbinds, hinner⟩

end Machine.Shares

/-- The scopes of a forest share frames. -/
lemma Forest.shares {m : Machine} {scopes : List Scope} (h : Forest m scopes) :
    m.Shares scopes := by
  induction h with
  | start m => exact ⟨by simp, by simp, by simp⟩
  | newTop h ih => exact ih.push (by simp [Machine.newTop]) (.inl rfl)
  | enclose h hs ih => exact ih.push (by simp [Machine.enclose]) (.inr ⟨_, hs, rfl⟩)
  | set h hs name v ih => exact ih.of_size_eq (by simp [Machine.set, Machine.put])
  | @assign m scopes s h hs name v ih =>
    refine ih.of_size_eq ?_
    unfold Machine.assign
    split <;> simp [Machine.put]

/-! ### The laws -/

/-- Binding a name through one scope is seen where the name is resolved to this scope. -/
lemma Machine.Shares.changesTo_set {m : Machine} {scopes : List Scope} (h : m.Shares scopes)
    {e d : Scope} (he : e ∈ scopes) (hd : d ∈ scopes) (name other : String) (v : Value) :
    m.ChangesTo (m.set e name v) d other v
      (other = name ∧ (m.set e name v).Resolves d name e) := by
  have hthere := h.there e he e.frame List.mem_cons_self
  have hget : (m.set e name v).get? d other = _ := Machine.find?_put hthere name other v d.chain
  rw [h.resolves_iff hd he]
  exact ⟨fun hc => hget.trans (if_pos hc), fun hc => hget.trans (if_neg hc)⟩

/-- Assigning a name through one scope is seen where the name is resolved to the same scope. -/
lemma Machine.Shares.changesTo_assign {m : Machine} {scopes : List Scope} (h : m.Shares scopes)
    {e d : Scope} (he : e ∈ scopes) (hd : d ∈ scopes) (name other : String) (v : Value)
    (hfound : (m.assign e name v).1) :
    m.ChangesTo (m.assign e name v).2 d other v
      (other = name ∧ ∃ o ∈ scopes, m.Resolves d name o ∧ m.Resolves e name o) := by
  cases howner : m.owner? name e.chain with
  | none => simp [Machine.assign, howner] at hfound
  | some i =>
    obtain ⟨o, ho, rfl, hresolves⟩ := h.exists_resolves he howner
    have hbinds : (m.frame o.frame).binds name := Machine.binds_of_owner? howner
    have hthere := h.there o ho o.frame List.mem_cons_self
    have hafter : (m.assign e name v).2 = m.put o.frame name v := by
      simp [Machine.assign, howner]
    have hget := Machine.find?_put hthere name other v d.chain
    rw [Machine.owner?_put hbinds] at hget
    have hsame : (∃ o ∈ scopes, m.Resolves d name o ∧ m.Resolves e name o) ↔
        m.owner? name d.chain = some o.frame := by
      constructor
      · rintro ⟨o', ho', hd', he'⟩
        rw [h.resolves_iff he ho', howner, Option.some.injEq] at he'
        rw [he']
        exact (h.resolves_iff hd ho').1 hd'
      · intro hd'
        exact ⟨o, ho, (h.resolves_iff hd ho).2 hd', hresolves⟩
    rw [hafter, hsame]
    exact ⟨fun hc => hget.trans (if_pos hc), fun hc => hget.trans (if_neg hc)⟩

/-- A name is assigned if it means something. -/
lemma Machine.assign_found (m : Machine) (e : Scope) (name : String) (v : Value) :
    (m.assign e name v).1 = true ↔ (m.get? e name).isSome := by
  rw [Machine.get?, ← Machine.isSome_owner?]
  unfold Machine.assign
  cases m.owner? name e.chain <;> simp

/-- An assignment to a name without a meaning changes nothing. -/
lemma Machine.assign_not_found (m : Machine) (e : Scope) (name : String) (v : Value)
    (h : (m.assign e name v).1 = false) : (m.assign e name v).2 = m := by
  unfold Machine.assign at h ⊢
  generalize m.owner? name e.chain = owner at h ⊢
  cases owner with
  | none => rfl
  | some i => cases h

/-- The laws of shared scopes.

Let `e` and `d` be scopes of a forest.  Binding a name in `e` changes what a name means in `d` if it
is this name and `d` then resolves it to `e`, and only then.  A name can be assigned through `e`
exactly if it means something there; then this changes what a name means in `d` if it is this name
and `d` resolves it to the same scope as `e` does, and only then; otherwise nothing changes at all.
The names of `d` are those that mean something there, in strictly increasing order of their
bytes. -/
theorem Forest.seen_where_resolved {m : Machine} {scopes : List Scope} (h : Forest m scopes)
    {e d : Scope} (he : e ∈ scopes) (hd : d ∈ scopes) (name other : String) (v : Value) :
    m.ChangesTo (m.set e name v) d other v
      (other = name ∧ (m.set e name v).Resolves d name e) ∧
    ((m.assign e name v).1 = true ↔ (m.get? e name).isSome) ∧
    ((m.assign e name v).1 = true → m.ChangesTo (m.assign e name v).2 d other v
      (other = name ∧ ∃ o ∈ scopes, m.Resolves d name o ∧ m.Resolves e name o)) ∧
    ((m.assign e name v).1 = false → (m.assign e name v).2 = m) ∧
    (m.names d).Pairwise (fun a b => Text.bytes a < Text.bytes b) ∧
    ∀ a, a ∈ m.names d ↔ (m.get? d a).isSome := by
  have hshares := h.shares
  refine ⟨hshares.changesTo_set he hd name other v, m.assign_found e name v,
    hshares.changesTo_assign he hd name other v, m.assign_not_found e name v,
    (m.pairwise_names d).imp Text.bytes_lt, fun a => Machine.mem_names⟩

/-- A name is bound in a scope and again in one of two scopes inside it. Assigning it through the
other one is seen through that one and the scope around both. -/
theorem Forest.seen_where_resolved_siblings :
    let p := ({} : Machine).newTop
    let c := p.2.enclose p.1
    let d := c.2.enclose p.1
    let m := ((d.2.set p.1 "é" .null).set p.1 "z" (.boolean false)).set c.1 "z" (.boolean true)
    let after := (m.assign d.1 "z" .null).2
    Forest m [d.1, c.1, p.1] ∧ (m.assign d.1 "z" .null).1 = true ∧
      after.get? p.1 "z" = some .null ∧ after.get? d.1 "z" = some .null ∧
      (after.get? c.1 "z").map Value.truthy = some true ∧ m.names c.1 = ["z", "é"] ∧
      (m.names c.1).Pairwise (fun a b => Text.bytes a < Text.bytes b) := by
  intro p c d m after
  have hp : p.1 ∈ [d.1, c.1, p.1] := by simp
  have hc : c.1 ∈ [d.1, c.1, p.1] := by simp
  have hd : d.1 ∈ [d.1, c.1, p.1] := by simp
  have hscopes : Forest d.2 [d.1, c.1, p.1] :=
    ((Forest.start {}).newTop.enclose (List.mem_singleton_self _)).enclose (by simp [p])
  have hforest : Forest m [d.1, c.1, p.1] :=
    ((hscopes.set hp "é" .null).set hp "z" (.boolean false)).set hc "z" (.boolean true)
  have hfound : (m.assign d.1 "z" .null).1 = true := by decide +kernel
  have hunbound : (m.frame 2).binds "z" = false := by decide +kernel
  have hbound : (m.frame 0).binds "z" := by decide +kernel
  -- the scope around both resolves the name to itself, and so does the scope that does not bind it
  have hself : m.Resolves p.1 "z" p.1 := ⟨[], rfl, hbound, List.forall_mem_nil _⟩
  have houter : m.Resolves d.1 "z" p.1 := ⟨[2], rfl, hbound, List.forall_mem_singleton.2 hunbound⟩
  obtain ⟨-, -, hseen, -⟩ := hforest.seen_where_resolved hd hp "z" "z" .null
  obtain ⟨-, -, hown, -⟩ := hforest.seen_where_resolved hd hd "z" "z" .null
  obtain ⟨-, -, -, -, hordered, -⟩ := hforest.seen_where_resolved hd hc "z" "z" .null
  exact ⟨hforest, hfound, (hseen hfound).1 ⟨rfl, p.1, hp, hself, houter⟩,
    (hown hfound).1 ⟨rfl, p.1, hp, houter, houter⟩, by decide +kernel, by decide +kernel, hordered⟩

end Lugha
