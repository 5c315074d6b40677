import Lugha.Proofs.Walk

/-!
# The parser reads what is written

If reading a list of tokens reports nothing, the tokens are a written form of the program
that was read, and the program is canonical and not nested too deeply.

A tree is derived from the tokens that are read for it, and a derivation without a report is a
written form: the recursion follows the derivation, with one case for each of its rules.
`Parser.Sound` says what this comes to for a parser: it reports a fault or else gives a result that
stands in a given relation to the tokens it passes over.  Two facts hold in any case: no report is
taken back, and the cursor moves on over tokens none of which is the mark of the end.
-/

namespace Lugha

/-! ### Trees that were read -/

/-- The tokens are a written form of a canonical tree that takes at most `n` levels. -/
structure Wellread {α : Type} (spells : α → List TokenKind → Prop) (isCanonical : α → Bool)
    (levels : α → Nat) (n : Nat) (a : α) (ts : List TokenKind) : Prop where
  spells : spells a ts
  canonical : isCanonical a
  levels_le : levels a ≤ n

/-- An expression that was read as an expression, which is a level of its own. -/
abbrev Expr.Read : Nat → Expr → List TokenKind → Prop :=
  Wellread Expr.Spells Expr.isCanonical (·.nesting + 1)

/-- Arguments that were read. -/
abbrev Expr.ReadArgs : Nat → List Expr → List TokenKind → Prop :=
  Wellread (Separated Expr.Spells) Expr.areCanonical Expr.nestingList

/-- A conditional that was read. -/
abbrev Conditional.Read : Nat → Conditional → List TokenKind → Prop :=
  Wellread Conditional.Spells Conditional.isCanonical Conditional.nesting

/-- A block that was read. -/
abbrev Block.Read : Nat → Block → List TokenKind → Prop :=
  Wellread Block.Spells Block.isCanonical Block.nesting

/-- A statement that was read. -/
abbrev Stmt.Read : Nat → Stmt → List TokenKind → Prop :=
  Wellread Stmt.Spells Stmt.isCanonical Stmt.nesting

/-- Statements that were read. -/
abbrev Stmt.ReadList : Nat → List Stmt → List TokenKind → Prop :=
  Wellread (Terminated Stmt.Spells) Stmt.areCanonical Stmt.nestingList

/-- A statement that consists of a value and words around it. -/
lemma Expr.Read.stmt {n : Nat} {value : Expr} {ts us : List TokenKind} {stmt : Stmt}
    (h : value.Read n ts) (hspells : stmt.Spells us)
    (hcanonical : stmt.isCanonical = value.isCanonical)
    (hnesting : stmt.nesting = value.nesting + 1) : stmt.Read n us :=
  ⟨hspells, hcanonical ▸ h.canonical, hnesting ▸ h.levels_le⟩

/-- A tree that is written as one token. -/
lemma Expr.Read.leaf {n : Nat} {e : Expr} {k : TokenKind} (hspells : e.Spells [k])
    (hcanonical : e.isCanonical) (hnesting : e.nesting = 0) : e.Read (n + 1) [k] :=
  ⟨hspells, hcanonical, by omega⟩

/-- Two operands and the operator between them. -/
lemma Expr.Read.binary {n : Nat} {span : Span} {op : BinaryOp} {left right : Expr}
    {ts us : List TokenKind} (hleft : left.Read n ts) (hright : right.Read n us)
    (htight : op.tightness ≤ left.tightness ∧ op.tightness < right.tightness) :
    (Expr.binary span op left right).Read n (ts ++ .symbol op.symbol :: us) := by
  refine ⟨.binary hleft.spells hright.spells, ?_, ?_⟩
  · simpa [Expr.isCanonical, hleft.canonical, hright.canonical] using htight
  · have hlevels := hleft.levels_le
    have hlevels' := hright.levels_le
    simp only [Expr.nesting]
    omega

/-- One argument. -/
lemma Expr.ReadArgs.single {n : Nat} {e : Expr} {ts : List TokenKind} (h : e.Read n ts) :
    Expr.ReadArgs n [e] ts := by
  refine ⟨.last h.spells, ?_, ?_⟩
  · simpa [Expr.areCanonical] using h.canonical
  · simpa [Expr.nestingList] using h.levels_le

/-- An argument before others. -/
lemma Expr.ReadArgs.cons {n : Nat} {e : Expr} {es : List Expr} {ts us : List TokenKind}
    (h : e.Read n ts) (hrest : Expr.ReadArgs n es us) :
    Expr.ReadArgs n (e :: es) (ts ++ .symbol .comma :: us) := by
  refine ⟨hrest.spells.push h.spells, ?_, ?_⟩
  · simpa [Expr.areCanonical] using ⟨h.canonical, hrest.canonical⟩
  · rw [Expr.nestingList]
    exact Nat.max_le.2 ⟨h.levels_le, hrest.levels_le⟩

/-- No arguments. -/
lemma Expr.ReadArgs.nil (n : Nat) : Expr.ReadArgs n [] [] :=
  ⟨.nil, by rw [Expr.areCanonical], by simp [Expr.nestingList]⟩

/-- A callee and its arguments. -/
lemma Expr.Read.call {n : Nat} {span : Span} {callee : Expr} {args : List Expr}
    {ts us : List TokenKind} (hcallee : callee.Read (n + 1) ts) (hargs : Expr.ReadArgs n args us)
    (htight : 6 ≤ callee.tightness) :
    (Expr.call span callee args).Read (n + 1)
      (ts ++ .symbol .openParen :: (us ++ [.symbol .closeParen])) := by
  refine ⟨.call hcallee.spells hargs.spells, ?_, ?_⟩
  · simpa [Expr.isCanonical, hcallee.canonical, hargs.canonical] using htight
  · have hlevels := hcallee.levels_le
    have hlevels' := hargs.levels_le
    simp only [Expr.nesting]
    omega

/-- A condition and a block. -/
lemma Expr.Read.ifThen {n : Nat} {span : Span} {e : Expr} {yes : Block} {ts us : List TokenKind}
    (h : e.Read n ts) (hyes : yes.Read n us) :
    (Conditional.ifThen span e yes).Read n
      (.keyword .kama :: .symbol .openParen :: (ts ++ .symbol .closeParen :: us)) := by
  refine ⟨.ifThen h.spells hyes.spells, ?_, ?_⟩
  · simp [Conditional.isCanonical, h.canonical, hyes.canonical]
  · rw [Conditional.nesting]
    exact Nat.max_le.2 ⟨h.levels_le, hyes.levels_le⟩

/-- A condition and two blocks. -/
lemma Expr.Read.ifElse {n : Nat} {span : Span} {e : Expr} {yes no : Block}
    {ts us vs : List TokenKind} (h : e.Read n ts) (hyes : yes.Read n us) (hno : no.Read n vs) :
    (Conditional.ifElse span e yes no).Read n (.keyword .kama :: .symbol .openParen ::
      (ts ++ .symbol .closeParen :: (us ++ .keyword .sivyo :: vs))) := by
  refine ⟨.ifElse h.spells hyes.spells hno.spells, ?_, ?_⟩
  · simp [Conditional.isCanonical, h.canonical, hyes.canonical, hno.canonical]
  · rw [Conditional.nesting]
    exact Nat.max_le.2 ⟨h.levels_le, Nat.max_le.2 ⟨hyes.levels_le, hno.levels_le⟩⟩

/-- A condition, a block and a further conditional. -/
lemma Expr.Read.elseIf {n : Nat} {span : Span} {e : Expr} {yes : Block} {next : Conditional}
    {ts us vs : List TokenKind} (h : e.Read n ts) (hyes : yes.Read n us)
    (hnext : next.Read n vs) :
    (Conditional.elseIf span e yes next).Read n (.keyword .kama :: .symbol .openParen ::
      (ts ++ .symbol .closeParen :: (us ++ .keyword .sivyo :: vs))) := by
  refine ⟨.elseIf h.spells hyes.spells hnext.spells, ?_, ?_⟩
  · simp [Conditional.isCanonical, h.canonical, hyes.canonical, hnext.canonical]
  · rw [Conditional.nesting]
    exact Nat.max_le.2 ⟨h.levels_le, Nat.max_le.2 ⟨hyes.levels_le, hnext.levels_le⟩⟩

/-- Parameters after one that has a new name. -/
lemma distinctNames_concat {given : List Ident} {param : Ident} (hgiven : distinctNames given)
    (hfresh : given.any (·.name == param.name) = false) : distinctNames (given ++ [param]) := by
  unfold distinctNames at hgiven ⊢
  simp only [decide_eq_true_eq, List.map_append, List.map_cons, List.map_nil] at hgiven ⊢
  rw [List.nodup_append]
  simp_all

/-- No statements. -/
lemma Stmt.ReadList.nil (n : Nat) : Stmt.ReadList n [] [] :=
  ⟨.nil, by rw [Stmt.areCanonical], by simp [Stmt.nestingList]⟩

/-- A statement before others. -/
lemma Stmt.ReadList.push {n : Nat} {stmt : Stmt} {stmts : List Stmt} {ts us vs : List TokenKind}
    (hrest : Stmt.ReadList n stmts us) (h : stmt.Read n ts)
    (hspells : Terminated Stmt.Spells (stmt :: stmts) vs) : Stmt.ReadList n (stmt :: stmts) vs := by
  refine ⟨hspells, ?_, ?_⟩
  · simpa [Stmt.areCanonical] using ⟨h.canonical, hrest.canonical⟩
  · rw [Stmt.nestingList]
    exact Nat.max_le.2 ⟨h.levels_le, hrest.levels_le⟩

/-! ### Derivations without a report -/

variable {placed : Span → List Token → Prop}

/-- The words before the parameters of a function. -/
lemma Opening.kinds {name : Option Ident} {ts : List Token} (h : Opening name ts) :
    ts.map (·.kind) = functionHead name := by
  cases h with
  | unda ht => simp [ht, functionHead]
  | kazi ht hname =>
    obtain ⟨u, rfl, hu, -⟩ := hname
    simp [ht, hu, functionHead]

/-- A name is written as itself. -/
lemma Ident.Located.spells {i : Ident} {ts : List Token} (h : i.Located ts) :
    i.Spells (ts.map (·.kind)) := by
  obtain ⟨t, rfl, ht, -⟩ := h
  simp [Ident.Spells, ht]

/-- A name is not reported if it was not given before. -/
lemma Ident.any_of_repetition {given : List Ident} {param : Ident}
    (h : param.repetition given = []) : given.any (·.name == param.name) = false := by
  unfold Ident.repetition at h
  split at h
  · cases h
  · exact Bool.not_eq_true _ ▸ ‹_›

/-- Parameters of which none was reported are written with commas between them, and all differ. -/
lemma Parameters.read {given params : List Ident} {ts : List Token} {fs : List Fault}
    (h : Parameters given params ts fs) (hfs : fs = []) :
    Separated Ident.Spells params (ts.map (·.kind)) ∧
      (distinctNames given → distinctNames (given ++ params)) := by
  induction h with
  | nil => exact ⟨.nil, by simp⟩
  | last h => exact ⟨.last h.spells, fun hgiven =>
      distinctNames_concat hgiven (Ident.any_of_repetition hfs)⟩
  | cons h ht _ ih =>
    obtain ⟨hnew, hrest⟩ := List.append_eq_nil_iff.1 hfs
    obtain ⟨hspells, hdistinct⟩ := ih hrest
    simp only [List.map_append, List.map_cons, ht]
    refine ⟨hspells.push h.spells, fun hgiven => ?_⟩
    simpa using hdistinct (distinctNames_concat hgiven (Ident.any_of_repetition hnew))

mutual

/-- An expression. -/
lemma Expr.Derived.read {n : Nat} {e : Expr} {ts : List Token} {fs : List Fault} :
    Expr.Derived placed n e ts fs → fs = [] → e.Read n (ts.map (·.kind))
  | .number ht _, _ => by
    rw [List.map_singleton, ht]
    exact .leaf (.number _ _) (by rw [Expr.isCanonical]) (by rw [Expr.nesting])
  | .text ht _, _ => by
    rw [List.map_singleton, ht]
    exact .leaf (.text _ _) (by rw [Expr.isCanonical]) (by rw [Expr.nesting])
  | .boolean ht _, _ => by
    rw [List.map_singleton, ht]
    exact .leaf (.boolean _ _) (by rw [Expr.isCanonical]) (by rw [Expr.nesting])
  | .null ht _, _ => by
    rw [List.map_singleton, ht]
    exact .leaf (.null _) (by rw [Expr.isCanonical]) (by rw [Expr.nesting])
  | .name ht _, _ => by
    rw [List.map_singleton, ht]
    exact .leaf (.name _ _) (by rw [Expr.isCanonical]) (by rw [Expr.nesting])
  | .call htight hcallee hparens hargs _, hfs => by
    obtain ⟨hfs, hgs⟩ := List.append_eq_nil_iff.1 hfs
    simpa [hparens.opens, hparens.closes] using (hcallee.read hfs).call (hargs.read hgs) htight
  | .binary htight hleft ht hright _, hfs => by
    obtain ⟨hfs, hgs⟩ := List.append_eq_nil_iff.1 hfs
    simpa [ht] using (hleft.read hfs).binary (hright.read hgs) htight
  | .unary htight ht hoperand _, hfs => by
    have hoperand := hoperand.read hfs
    rw [List.map_cons, ht]
    refine ⟨.unary hoperand.spells, ?_, ?_⟩
    · simp [Expr.isCanonical, htight, hoperand.canonical]
    · simpa [Expr.nesting] using hoperand.levels_le
  | .conditional hbranches, hfs => by
    have hbranches := hbranches.read hfs
    refine ⟨.conditional hbranches.spells, ?_, ?_⟩
    · simpa [Expr.isCanonical] using hbranches.canonical
    · rw [Expr.nesting]
      exact Nat.succ_le_succ hbranches.levels_le
  | .loop ht hparens hcondition hbody _, hfs => by
    obtain ⟨hfs, hgs⟩ := List.append_eq_nil_iff.1 hfs
    have hcondition := hcondition.read hfs
    have hbody := hbody.read hgs
    simp only [List.map_cons, List.map_append, ht, hparens.opens, hparens.closes]
    refine ⟨.loop hcondition.spells hbody.spells, ?_, ?_⟩
    · simp [Expr.isCanonical, hcondition.canonical, hbody.canonical]
    · rw [Expr.nesting]
      exact Nat.succ_le_succ (Nat.max_le.2 ⟨hcondition.levels_le, hbody.levels_le⟩)
  | .function hhead hparens hparams hbody _, hfs => by
    obtain ⟨hfs, hgs⟩ := List.append_eq_nil_iff.1 hfs
    obtain ⟨hspells, hdistinct⟩ := hparams.read hfs
    have hbody := hbody.read hgs
    simp only [List.map_cons, List.map_append, hhead.kinds, hparens.opens, hparens.closes]
    refine ⟨.function hspells hbody.spells, ?_, ?_⟩
    · simpa [Expr.isCanonical, hbody.canonical] using hdistinct rfl
    · rw [Expr.nesting]
      exact Nat.succ_le_succ hbody.levels_le
  | .paren hparens hinner _, hfs => by
    have hinner := hinner.read hfs
    simp only [List.map_cons, List.map_append, List.map_nil, hparens.opens, hparens.closes]
    refine ⟨.paren hinner.spells, ?_, ?_⟩
    · simpa [Expr.isCanonical] using hinner.canonical
    · simpa [Expr.nesting] using hinner.levels_le

/-- Arguments. -/
lemma Expr.DerivedArgs.read {n : Nat} {es : List Expr} {ts : List Token} {fs : List Fault} :
    Expr.DerivedArgs placed n es ts fs → fs = [] → Expr.ReadArgs n es (ts.map (·.kind))
  | .nil, _ => .nil n
  | .last h, hfs => .single (h.read hfs)
  | .cons h ht hrest, hfs => by
    obtain ⟨hfs, hgs⟩ := List.append_eq_nil_iff.1 hfs
    simpa [ht] using Expr.ReadArgs.cons (h.read hfs) (hrest.read hgs)

/-- A conditional. -/
lemma Conditional.Derived.read {n : Nat} {branches : Conditional} {ts : List Token}
    {fs : List Fault} :
    Conditional.Derived placed n branches ts fs → fs = [] → branches.Read n (ts.map (·.kind))
  | .ifThen ht hparens hcondition hyes _, hfs => by
    obtain ⟨hfs, hgs⟩ := List.append_eq_nil_iff.1 hfs
    simp only [List.map_cons, List.map_append, ht, hparens.opens, hparens.closes]
    exact (hcondition.read hfs).ifThen (hyes.read hgs)
  | .ifElse ht hparens hcondition hyes hu hno _, hfs => by
    simp only [List.append_eq_nil_iff] at hfs
    simp only [List.map_cons, List.map_append, ht, hparens.opens, hparens.closes, hu]
    exact (hcondition.read hfs.1).ifElse (hyes.read hfs.2.1) (hno.read hfs.2.2)
  | .elseIf ht hparens hcondition hyes hu hnext _, hfs => by
    simp only [List.append_eq_nil_iff] at hfs
    simp only [List.map_cons, List.map_append, ht, hparens.opens, hparens.closes, hu]
    exact (hcondition.read hfs.1).elseIf (hyes.read hfs.2.1) (hnext.read hfs.2.2)

/-- A block. -/
lemma Block.Derived.read {n : Nat} {b : Block} {ts : List Token} {fs : List Fault} :
    Block.Derived placed n b ts fs → fs = [] → b.Read n (ts.map (·.kind))
  | .mk ht hstmts hu _, hfs => by
    have hstmts := hstmts.read hfs
    simp only [List.map_cons, List.map_append, List.map_nil, ht, hu]
    refine ⟨.mk hstmts.spells, ?_, ?_⟩
    · simpa [Block.isCanonical] using hstmts.canonical
    · simpa [Block.nesting] using hstmts.levels_le

/-- Statements: if nothing was reported, all of them were read. -/
lemma Stmt.DerivedList.read {top : Bool} {n : Nat} {stmts : List Stmt} {ts : List Token}
    {fs : List Fault} :
    Stmt.DerivedList placed top n stmts ts fs → fs = [] → Stmt.ReadList n stmts (ts.map (·.kind))
  | .nil, _ => .nil n
  | .plain h hrest, hfs => by
    obtain ⟨hfs, hgs⟩ := List.append_eq_nil_iff.1 hfs
    have hstmt := h.read hfs
    have hstmts := hrest.read hgs
    rw [List.map_append]
    exact hstmts.push hstmt (.plain hstmt.spells hstmts.spells)
  | .semicolon h ht hrest, hfs => by
    obtain ⟨hfs, hgs⟩ := List.append_eq_nil_iff.1 hfs
    have hstmt := h.read hfs
    have hstmts := hrest.read hgs
    rw [List.map_append, List.map_cons, ht]
    exact hstmts.push hstmt (.semicolon hstmt.spells hstmts.spells)
  | .failed hne _ _, hfs => absurd (List.append_eq_nil_iff.1 hfs).1 hne
  | .brace _ _, hfs => absurd hfs (List.cons_ne_nil _ _)

/-- A statement. -/
lemma Stmt.Derived.read {n : Nat} {stmt : Stmt} {ts : List Token} {fs : List Fault} :
    Stmt.Derived placed n stmt ts fs → fs = [] → stmt.Read n (ts.map (·.kind))
  | .bind ht hname hu hvalue _, hfs => by
    have hvalue := hvalue.read hfs
    obtain ⟨v, rfl, hv, -⟩ := hname
    simp only [List.map_cons, List.map_append, List.map_nil, ht, hu, hv]
    exact hvalue.stmt (.bind hvalue.spells) (by simp [Stmt.isCanonical]) (by simp [Stmt.nesting])
  | .assign hname hu hvalue _, hfs => by
    have hvalue := hvalue.read hfs
    obtain ⟨v, rfl, hv, -⟩ := hname
    simp only [List.map_cons, List.map_append, List.map_nil, hu, hv]
    exact hvalue.stmt (.assign hvalue.spells) (by rw [Stmt.isCanonical]) (by rw [Stmt.nesting])
  | .returnValue ht hvalue _, hfs => by
    have hvalue := hvalue.read hfs
    rw [List.map_cons, ht]
    exact hvalue.stmt (.returnValue hvalue.spells) (by rw [Stmt.isCanonical])
      (by rw [Stmt.nesting])
  | .returnNothing ht _, _ => by
    rw [List.map_singleton, ht]
    exact ⟨.returnNothing _, by simp [Stmt.isCanonical], by simp [Stmt.nesting]⟩
  | .breakLoop ht _, _ => by
    rw [List.map_singleton, ht]
    exact ⟨.breakLoop _, by simp [Stmt.isCanonical], by simp [Stmt.nesting]⟩
  | .continueLoop ht _, _ => by
    rw [List.map_singleton, ht]
    exact ⟨.continueLoop _, by simp [Stmt.isCanonical], by simp [Stmt.nesting]⟩
  | .expr hvalue, hfs => by
    have hvalue := hvalue.read hfs
    exact hvalue.stmt (.expr hvalue.spells) (by rw [Stmt.isCanonical]) (by rw [Stmt.nesting])

end

/-! ### Sound parsers -/

namespace Parser

variable {α : Type} {c : Cursor} {expr : Parser Expr} {n : Nat}

/-- The result of a parser at a cursor is sound: unless a fault is reported, there is a result
and it stands in the given relation to the tokens passed over. -/
structure Sound (c : Cursor) (Q : α → List TokenKind → Prop) (x : Option α × Cursor) : Prop where
  total_le : c.faults.total ≤ x.2.faults.total
  passed : ∃ ts, c.Passes x.2 ts
  read : x.2.faults.total = c.faults.total → ∃ a ts, x.1 = some a ∧ c.Passes x.2 ts ∧ Q a ts

/-- Without a result a fault was reported. -/
lemma Sound.total_lt {Q : α → List TokenKind → Prop} {c' : Cursor} (h : Sound c Q (none, c')) :
    c.faults.total < c'.faults.total := by
  refine Nat.lt_of_le_of_ne h.total_le fun htotal => ?_
  obtain ⟨a, ts, ha, -⟩ := h.read htotal.symm
  cases ha

/-- What is derived without a report is read. -/
lemma Sound.of_outcome {P : α → List Token → List Fault → Prop} {Q : α → List TokenKind → Prop}
    {x : Option α × Cursor} (h : Placement.any.watch.Outcome n c P x)
    (hPQ : ∀ {a ts fs}, P a ts fs → fs = [] → Q a (ts.map (·.kind))) : Sound c Q x := by
  cases h with
  | @done a c' ts fs hmove hresult =>
    have htotal := hmove.read.total_eq
    refine ⟨hmove.read.onward.total_le, ⟨_, hmove.read.passes⟩, fun hclean => ?_⟩
    have hfs : fs = [] := List.length_eq_zero_iff.1 (by dsimp only at hclean; omega)
    exact ⟨a, _, rfl, hmove.read.passes, hPQ hresult hfs⟩
  | @failed c' ts fs hmove hfs =>
    have htotal := hmove.read.total_eq
    have hpos := List.length_pos_iff.2 hfs
    refine ⟨hmove.read.onward.total_le, ⟨_, hmove.read.passes⟩, fun hclean => ?_⟩
    dsimp only at hclean
    omega

variable (hexpr : Placement.any.watch.YieldsExpr n n expr)

include hexpr

/-- A statement up to its semicolon. -/
lemma sound_unterminated : Sound c (Stmt.Read n) (unterminated expr c) :=
  .of_outcome (yields_unterminated hexpr trivial) Stmt.Derived.read

/-- The statements of a program. -/
lemma sound_topLevel (rounds : Nat) (c : Cursor) :
    Sound c (Stmt.ReadList n) (some (topLevel expr rounds c).1, (topLevel expr rounds c).2) :=
  .of_outcome (yields_programStatements (m := n) hexpr rounds c trivial) Stmt.DerivedList.read

/-- Reading a program goes on to the end if nothing is reported. -/
lemma atEnd_topLevel {rounds : Nat} (hrounds : c.rest.length ≤ rounds)
    (htotal : (topLevel expr rounds c).2.faults.total = 0) :
    (topLevel expr rounds c).2.atEnd := by
  refine (programStatements_stops hexpr hrounds).resolve_right ?_
  change ¬ (topLevel expr rounds c).2.faults.isFull
  simp [ErrorList.isFull, htotal, ErrorList.capacity]

end Parser

/-- The parser reads what is written.  If the mark of the end stands nowhere but last and
nothing is reported, the tokens before it are a written form of the program, and the program
is canonical and not nested too deeply. -/
theorem parseTokens_spells {tokens : List Token}
    (hend : ∀ t ∈ tokens.dropLast, t.kind ≠ .endOfFile)
    (hclean : (parseTokens tokens).2.hasErrors = false) :
    (parseTokens tokens).1.Spells ((tokens.map (·.kind)).filter fun k => !k.isEnd) ∧
      (parseTokens tokens).1.isCanonical ∧ (parseTokens tokens).1.nesting ≤ maxNesting := by
  have hexpr := Parser.derives_expression maxNesting
  have hsound := Parser.sound_topLevel hexpr (Cursor.ofTokens tokens).rest.length (.ofTokens tokens)
  have htotal : (parseTokens tokens).2.total = 0 := by
    simpa [ErrorList.hasErrors] using hclean
  have hatEnd := Parser.atEnd_topLevel hexpr (Nat.le_refl _) htotal
  obtain ⟨stmts, ts, hstmts, hpass, hread⟩ := hsound.read htotal
  cases hstmts
  refine ⟨?_, hread.canonical, hread.levels_le⟩
  have hkinds := hpass.kinds
  rw [Cursor.kinds_ofTokens hend] at hkinds
  generalize hts' : (tokens.map (·.kind)).filter (fun k => !k.isEnd) = ts' at hkinds ⊢
  have hnoEnd : .endOfFile ∉ ts' := by
    rw [← hts']
    simp [TokenKind.isEnd]
  -- the tokens passed over have no mark of the end, so they are all tokens before it
  rcases Cursor.kinds_of_atEnd hatEnd with hnil | ⟨us, hus⟩
  · rw [hnil, List.append_nil] at hkinds
    exact absurd (hkinds ▸ by simp) hpass.noEnd
  · rw [hus] at hkinds
    obtain ⟨rfl, -⟩ := (List.append_cons_inj_of_notMem hnoEnd List.not_mem_nil).1 hkinds
    exact hread.spells

/-- `fanya f = unda(x,) { rudisha !x && kweli }; f(tupu)` is read without a fault, and written
with all three freedoms: the function takes its name from `fanya`, a comma follows its
parameter, and one of the two statements has a semicolon. -/
theorem parseTokens_spells_binding :
    let ts : List TokenKind :=
      [.keyword .fanya, .name "f", .symbol .assign, .keyword .unda, .symbol .openParen, .name "x",
        .symbol .comma, .symbol .closeParen, .symbol .openBrace, .keyword .rudisha, .symbol .bang,
        .name "x", .symbol .both, .keyword .kweli, .symbol .closeBrace, .symbol .semicolon,
        .name "f", .symbol .openParen, .keyword .tupu, .symbol .closeParen]
    let tokens : List Token := (ts ++ [TokenKind.endOfFile]).map fun k => ⟨k, .synthetic⟩
    (∀ t ∈ tokens.dropLast, t.kind ≠ .endOfFile) ∧
    (parseTokens tokens).2.hasErrors = false ∧
    (parseTokens tokens).1.Spells ts ∧
    (parseTokens tokens).1.isCanonical ∧
    (parseTokens tokens).1.nesting = 3 := by
  intro ts tokens
  have hend : ∀ t ∈ tokens.dropLast, t.kind ≠ .endOfFile := by simp [tokens, ts]
  have hclean : (parseTokens tokens).2.hasErrors = false := by rfl
  obtain ⟨hspells, hcanonical, -⟩ := parseTokens_spells hend hclean
  exact ⟨hend, hclean, hspells, hcanonical, by rfl⟩

end Lugha
