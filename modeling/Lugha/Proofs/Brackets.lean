import Lugha.Proofs.Conversation

/-!
# Brackets of programs

Input is complete when it does not open more brackets than it closes.  That is decided by
counting tokens, apart from the parser, which never counts.  The two agree on every program
that can be read: its brackets are balanced, each closed by its own kind, so that the count
ends at zero.

The brackets of a tree are balanced in all its written forms.  `Balanced` is shown of these
along their derivation, one case for each kind of tree, and the tokens of an accepted source
are a written form of its program.
-/

namespace Lugha

/-- Tokens in which every bracket is closed by one of its own kind, and what stands between
the two is again balanced. -/
inductive Balanced : List TokenKind → Prop
  | nil : Balanced []
  | other {k : TokenKind} {ks : List TokenKind} (hk : k.nesting = 0) (h : Balanced ks) :
      Balanced (k :: ks)
  | parens {ks ls : List TokenKind} (h : Balanced ks) (h' : Balanced ls) :
      Balanced (.symbol .openParen :: (ks ++ .symbol .closeParen :: ls))
  | braces {ks ls : List TokenKind} (h : Balanced ks) (h' : Balanced ls) :
      Balanced (.symbol .openBrace :: (ks ++ .symbol .closeBrace :: ls))

/-- How many more brackets some tokens open than they close. -/
def netNesting : List TokenKind → Int
  | [] => 0
  | k :: ks => k.nesting + netNesting ks

/-- The brackets of tokens after tokens. -/
lemma netNesting_append (ks ls : List TokenKind) :
    netNesting (ks ++ ls) = netNesting ks + netNesting ls := by
  induction ks with
  | nil => rw [List.nil_append, netNesting, Int.zero_add]
  | cons k ks ih => rw [List.cons_append, netNesting, netNesting, ih, Int.add_assoc]

namespace Balanced

/-- Balanced tokens after balanced tokens. -/
lemma append {ks ls : List TokenKind} (h : Balanced ks) (h' : Balanced ls) :
    Balanced (ks ++ ls) := by
  induction h with
  | nil => exact h'
  | other hk _ ih => exact .other hk ih
  | parens h _ _ ih => simpa using Balanced.parens h ih
  | braces h _ _ ih => simpa using Balanced.braces h ih

/-- Balanced tokens open as many brackets as they close. -/
lemma netNesting_eq {ks : List TokenKind} (h : Balanced ks) : netNesting ks = 0 := by
  induction h with
  | nil => rfl
  | other hk _ ih => rw [netNesting, hk, ih, Int.zero_add]
  | parens _ _ ih ih' | braces _ _ ih ih' =>
    rw [netNesting, netNesting_append, ih, netNesting, ih']
    rfl

end Balanced

/-- The signs of operators are no brackets. -/
lemma BinaryOp.nesting_symbol {op : BinaryOp} : (TokenKind.symbol op.symbol).nesting = 0 := by
  cases op <;> rfl

/-- The signs before an operand are no brackets. -/
lemma UnaryOp.nesting_symbol {op : UnaryOp} : (TokenKind.symbol op.symbol).nesting = 0 := by
  cases op <;> rfl

/-- The words before the parameters of a function hold no brackets. -/
lemma balanced_functionHead {name : Option Ident} : Balanced (functionHead name) := by
  cases name with
  | none => exact .other rfl .nil
  | some name => exact .other rfl (.other rfl .nil)

/-- Parameters hold no brackets. -/
lemma balanced_parameters {params : List Ident} {ts : List TokenKind}
    (h : Separated Ident.Spells params ts) : Balanced ts := by
  induction h with
  | nil => exact .nil
  | last h => exact h ▸ .other rfl .nil
  | trailing h => exact h ▸ .other rfl (.other rfl .nil)
  | cons h _ ih => exact h ▸ .other rfl (.other rfl ih)

-- The recursion is on the derivation: naming a bound function changes the tree, so the trees do
-- not get smaller.  Lists of arguments and of statements are part of it and have their own cases.
mutual

/-- The brackets of an expression are balanced. -/
lemma Expr.Spells.balanced {e : Expr} {ts : List TokenKind} : e.Spells ts → Balanced ts
  | .number .. | .text .. | .boolean .. | .null .. | .name .. => .other rfl .nil
  | .call hcallee hargs =>
    hcallee.balanced.append (.parens (Expr.Spells.balanced_separated hargs) .nil)
  | .binary hleft hright =>
    hleft.balanced.append (.other BinaryOp.nesting_symbol hright.balanced)
  | .unary hoperand => .other UnaryOp.nesting_symbol hoperand.balanced
  | .conditional hbranches => hbranches.balanced
  | .loop hcondition hbody => .other rfl (.parens hcondition.balanced hbody.balanced)
  | .function hparams hbody =>
    balanced_functionHead.append (.parens (balanced_parameters hparams) hbody.balanced)
  | .paren hinner => .parens hinner.balanced .nil

/-- The brackets of arguments are balanced. -/
lemma Expr.Spells.balanced_separated {es : List Expr} {ts : List TokenKind} :
    Separated Expr.Spells es ts → Balanced ts
  | .nil => .nil
  | .last h => h.balanced
  | .trailing h => h.balanced.append (.other rfl .nil)
  | .cons h hrest => h.balanced.append (.other rfl (Expr.Spells.balanced_separated hrest))

/-- The brackets of a conditional are balanced. -/
lemma Conditional.Spells.balanced {branches : Conditional} {ts : List TokenKind} :
    branches.Spells ts → Balanced ts
  | .ifThen hcondition hyes => .other rfl (.parens hcondition.balanced hyes.balanced)
  | .ifElse hcondition hyes hno =>
    .other rfl (.parens hcondition.balanced (hyes.balanced.append (.other rfl hno.balanced)))
  | .elseIf hcondition hyes hnext =>
    .other rfl (.parens hcondition.balanced (hyes.balanced.append (.other rfl hnext.balanced)))

/-- The brackets of a block are balanced. -/
lemma Block.Spells.balanced {b : Block} {ts : List TokenKind} : b.Spells ts → Balanced ts
  | .mk hstmts => .braces (Stmt.Spells.balanced_terminated hstmts) .nil

/-- The brackets of statements are balanced. -/
lemma Stmt.Spells.balanced_terminated {stmts : List Stmt} {ts : List TokenKind} :
    Terminated Stmt.Spells stmts ts → Balanced ts
  | .nil => .nil
  | .plain h hrest => h.balanced.append (Stmt.Spells.balanced_terminated hrest)
  | .semicolon h hrest =>
    h.balanced.append (.other rfl (Stmt.Spells.balanced_terminated hrest))

/-- The brackets of a statement are balanced. -/
lemma Stmt.Spells.balanced {stmt : Stmt} {ts : List TokenKind} : stmt.Spells ts → Balanced ts
  | .bind hvalue => .other rfl (.other rfl (.other rfl hvalue.balanced))
  | .assign hvalue => .other rfl (.other rfl hvalue.balanced)
  | .returnValue hvalue => .other rfl hvalue.balanced
  | .returnNothing _ | .breakLoop _ | .continueLoop _ => .other rfl .nil
  | .expr hvalue => hvalue.balanced

end

/-! ### Complete input -/

/-- Statements that are read to the end of their tokens without a fault are written by these
tokens. -/
lemma Parser.spells_of_clean {c : Cursor} {ks : List TokenKind}
    (hkinds : c.kinds = ks ++ [.endOfFile]) (hnoEnd : .endOfFile ∉ ks) (hempty : c.faults.total = 0)
    (hclean : (topLevel (expression maxNesting) c.rest.length c).2.faults.total = 0) :
    Terminated Stmt.Spells (topLevel (expression maxNesting) c.rest.length c).1 ks := by
  have hatEnd := atEnd_topLevel (derives_expression maxNesting) (Nat.le_refl _) hclean
  obtain ⟨stmts, ts, hstmts, hpass, hread⟩ :=
    (sound_topLevel (derives_expression maxNesting) c.rest.length c).read (hclean.trans hempty.symm)
  cases hstmts
  obtain ⟨us, rfl, hus⟩ := hpass.kinds_eq hkinds
  cases us with
  | nil =>
    rw [List.append_nil]
    exact hread.spells
  | cons u us =>
    -- reading stopped before a token, which would have to be the mark of the end
    have hmark : u = .endOfFile :=
      (Cursor.kind_of_kinds hus).symm.trans (Cursor.atEnd_iff.1 hatEnd)
    exact absurd (hmark ▸ List.mem_append_right ts List.mem_cons_self) hnoEnd

/-- The tokens of an accepted source are a written form of its program, with a mark of the end
after them. -/
lemma Source.spells_of_accepted {src : Source} {p : Program} (h : src.parse.accepted = .ok p) :
    ∃ ks, (scan src.text).1.map (·.kind) = ks ++ [.endOfFile] ∧ p.Spells ks := by
  have hclean : src.parse.diagnostics.hasErrors = false := by
    refine Bool.eq_false_iff.2 fun herrors => ?_
    rw [Parsed.accepted, if_pos herrors] at h
    cases h
  rw [Parsed.accepted, hclean, if_neg Bool.false_ne_true] at h
  cases h
  have htotal : ((scan src.text).2.append (parseTokens (scan src.text).1).2).total = 0 :=
    Nat.eq_zero_of_not_pos (of_decide_eq_false hclean)
  obtain ⟨hlexical, hgrammatical⟩ := ErrorList.append_total htotal
  obtain ⟨ks, hlaid, hkinds⟩ :=
    laidOut_of_scanFrom .origin src.text.toList (scan_eq_empty hlexical)
  exact ⟨ks, hkinds, Parser.spells_of_clean (Cursor.kinds_ofTokens_of_ended hkinds)
    hlaid.endOfFile_notMem rfl (congrArg ErrorList.total hgrammatical)⟩

/-- The count of open brackets goes up by what the tokens open and do not close. -/
lemma foldl_nesting (tokens : List Token) (n : Int) :
    tokens.foldl (fun n t => n + t.kind.nesting) n = n + netNesting (tokens.map (·.kind)) := by
  induction tokens generalizing n with
  | nil => exact (Int.add_zero n).symm
  | cons t tokens ih => rw [List.foldl_cons, ih, List.map_cons, netNesting, Int.add_assoc]

/-- A source that can be read is complete: its brackets are balanced, and none of them is left
open in the end. -/
theorem isComplete_of_accepted {src : Source} {p : Program} (h : src.parse.accepted = .ok p) :
    Balanced ((scan src.text).1.map (·.kind)) ∧
      (scan src.text).1.foldl (fun n t => n + t.kind.nesting) 0 = 0 ∧ isComplete src.text := by
  obtain ⟨ks, hkinds, hspells⟩ := Source.spells_of_accepted h
  have hbalanced : Balanced ((scan src.text).1.map (·.kind)) := by
    rw [hkinds]
    exact (Stmt.Spells.balanced_terminated hspells).append (.other rfl .nil)
  have hcount : (scan src.text).1.foldl (fun n t => n + t.kind.nesting) 0 = 0 := by
    rw [foldl_nesting, hbalanced.netNesting_eq, Int.add_zero]
  exact ⟨hbalanced, hcount, decide_eq_true (Int.le_of_eq hcount)⟩

/-- Brackets in a text, in a comment and around a block are told apart. -/
theorem isComplete_of_accepted_mixed :
    let src : Source :=
      ⟨"brackets", "fanya f = unda(x,) \x7b andika((x), '(') /* \x7d */ \x7d;\nf(1)"⟩
    src.parse.accepted = .ok src.parse.program ∧ isComplete src.text := by
  intro src
  have hclean : src.parse.diagnostics.hasErrors = false := by decide +kernel
  have haccepted : src.parse.accepted = .ok src.parse.program := by
    rw [Parsed.accepted, hclean, if_neg Bool.false_ne_true]
  exact ⟨haccepted, (isComplete_of_accepted haccepted).2.2⟩

end Lugha
