import Lugha.Proofs.Completeness
import Lugha.Proofs.ScopeDepth

/-!
# How deep conditionals stand

Reading a conditional and running it are recursive, and so is the way from the root of a program to
a part of it: it goes through one conditional after another.  There are two ways into a conditional.
It is entered where an expression stands: in a condition, in a block or in any other part of an
expression.  Or it is reached by a link, as the alternative of the conditional before it.  The
parser counts the levels of expressions, and a link is no level.

So the limit of the nesting is one for the conditionals that are entered, and a program that links
no conditionals keeps it with all of them.  Links come on top of it, and there may be any number of
them: a ladder of conditionals is read whatever its links.
-/

namespace Lugha

/-! ### Conditionals on a way into a tree -/

mutual

/-- The heaviest way into an expression.  A conditional on the way weighs `entry` if it is entered
as an expression, and `link` if it is the alternative of the one before it. -/
def Expr.heaviest (entry link : Nat) : Expr → Nat
  | .number .. | .text .. | .boolean .. | .null .. | .name .. => 0
  | .call _ callee args => max (callee.heaviest entry link) (Expr.heaviestList entry link args)
  | .binary _ _ left right => max (left.heaviest entry link) (right.heaviest entry link)
  | .unary _ _ operand => operand.heaviest entry link
  | .conditional branches => branches.heaviest entry link + entry
  | .loop _ condition body => max (condition.heaviest entry link) (body.heaviest entry link)
  | .function _ _ _ body => body.heaviest entry link
  | .paren _ inner => inner.heaviest entry link

/-- The heaviest way into arguments. -/
def Expr.heaviestList (entry link : Nat) : List Expr → Nat
  | [] => 0
  | e :: es => max (e.heaviest entry link) (Expr.heaviestList entry link es)

/-- The heaviest way on from a conditional, which does not weigh itself here. -/
def Conditional.heaviest (entry link : Nat) : Conditional → Nat
  | .ifThen _ condition yes => max (condition.heaviest entry link) (yes.heaviest entry link)
  | .ifElse _ condition yes no =>
    max (condition.heaviest entry link) (max (yes.heaviest entry link) (no.heaviest entry link))
  | .elseIf _ condition yes next =>
    max (condition.heaviest entry link)
      (max (yes.heaviest entry link) (next.heaviest entry link + link))

/-- The heaviest way into a block. -/
def Block.heaviest (entry link : Nat) : Block → Nat
  | .mk _ stmts => Stmt.heaviestList entry link stmts

/-- The heaviest way into statements. -/
def Stmt.heaviestList (entry link : Nat) : List Stmt → Nat
  | [] => 0
  | stmt :: stmts => max (stmt.heaviest entry link) (Stmt.heaviestList entry link stmts)

/-- The heaviest way into a statement. -/
def Stmt.heaviest (entry link : Nat) : Stmt → Nat
  | .bind _ _ value | .assign _ _ value | .returnValue _ value | .expr value =>
    value.heaviest entry link
  | .returnNothing _ | .breakLoop _ | .continueLoop _ => 0

end

namespace Program

variable (p : Program)

/-- The most conditionals on a way from the root of a program to one of its leaves. -/
def conditionals : Nat := Stmt.heaviestList 1 1 p.stmts

/-- The most conditionals on such a way that are entered as expressions. -/
def entries : Nat := Stmt.heaviestList 1 0 p.stmts

/-- The most conditionals on such a way that are the alternative of the one before them. -/
def links : Nat := Stmt.heaviestList 0 1 p.stmts

end Program

section Sum

variable (a b a' b' : Nat)

mutual

/-- A way is no heavier than the heaviest ones for the parts of its weights. -/
lemma Expr.heaviest_add_le : ∀ e : Expr,
    e.heaviest (a + a') (b + b') ≤ e.heaviest a b + e.heaviest a' b'
  | .number .. | .text .. | .boolean .. | .null .. | .name .. => by
    simp only [Expr.heaviest, Nat.le_refl]
  | .call _ callee args => by
    have hcallee := callee.heaviest_add_le
    have hargs := Expr.heaviestList_add_le args
    simp only [Expr.heaviest]
    omega
  | .binary _ _ left right => by
    have hleft := left.heaviest_add_le
    have hright := right.heaviest_add_le
    simp only [Expr.heaviest]
    omega
  | .unary _ _ operand | .paren _ operand => by
    simp only [Expr.heaviest]
    exact operand.heaviest_add_le
  | .conditional branches => by
    have hbranches := branches.heaviest_add_le
    simp only [Expr.heaviest]
    omega
  | .loop _ condition body => by
    have hcondition := condition.heaviest_add_le
    have hbody := body.heaviest_add_le
    simp only [Expr.heaviest]
    omega
  | .function _ _ _ body => by
    simp only [Expr.heaviest]
    exact body.heaviest_add_le

/-- The same for arguments. -/
lemma Expr.heaviestList_add_le : ∀ es : List Expr,
    Expr.heaviestList (a + a') (b + b') es ≤ Expr.heaviestList a b es + Expr.heaviestList a' b' es
  | [] => Nat.le_refl 0
  | e :: es => by
    have he := e.heaviest_add_le
    have hes := Expr.heaviestList_add_le es
    simp only [Expr.heaviestList]
    omega

/-- The same for a conditional. -/
lemma Conditional.heaviest_add_le : ∀ c : Conditional,
    c.heaviest (a + a') (b + b') ≤ c.heaviest a b + c.heaviest a' b'
  | .ifThen _ condition yes => by
    have hcondition := condition.heaviest_add_le
    have hyes := yes.heaviest_add_le
    simp only [Conditional.heaviest]
    omega
  | .ifElse _ condition yes no => by
    have hcondition := condition.heaviest_add_le
    have hyes := yes.heaviest_add_le
    have hno := no.heaviest_add_le
    simp only [Conditional.heaviest]
    omega
  | .elseIf _ condition yes next => by
    have hcondition := condition.heaviest_add_le
    have hyes := yes.heaviest_add_le
    have hnext := next.heaviest_add_le
    simp only [Conditional.heaviest]
    omega

/-- The same for a block. -/
lemma Block.heaviest_add_le : ∀ block : Block,
    block.heaviest (a + a') (b + b') ≤ block.heaviest a b + block.heaviest a' b'
  | .mk _ stmts => by
    simp only [Block.heaviest]
    exact Stmt.heaviestList_add_le stmts

/-- The same for statements. -/
lemma Stmt.heaviestList_add_le : ∀ stmts : List Stmt,
    Stmt.heaviestList (a + a') (b + b') stmts ≤
      Stmt.heaviestList a b stmts + Stmt.heaviestList a' b' stmts
  | [] => Nat.le_refl 0
  | stmt :: stmts => by
    have hstmt := stmt.heaviest_add_le
    have hstmts := Stmt.heaviestList_add_le stmts
    simp only [Stmt.heaviestList]
    omega

/-- The same for a statement. -/
lemma Stmt.heaviest_add_le : ∀ stmt : Stmt,
    stmt.heaviest (a + a') (b + b') ≤ stmt.heaviest a b + stmt.heaviest a' b'
  | .bind _ _ value | .assign _ _ value | .returnValue _ value | .expr value => by
    simp only [Stmt.heaviest]
    exact value.heaviest_add_le
  | .returnNothing _ | .breakLoop _ | .continueLoop _ => Nat.le_refl 0

end

end Sum

/-! ### Entered conditionals are levels -/

mutual

/-- Each conditional that is entered is one level of the nesting. -/
lemma Expr.entries_le_nesting : ∀ e : Expr, e.heaviest 1 0 ≤ e.nesting
  | .number .. | .text .. | .boolean .. | .null .. | .name .. => by
    simp only [Expr.heaviest, Nat.zero_le]
  | .call _ callee args => by
    have hcallee := callee.entries_le_nesting
    have hargs := Expr.entries_le_nestingList args
    simp only [Expr.heaviest, Expr.nesting]
    omega
  | .binary _ _ left right => by
    have hleft := left.entries_le_nesting
    have hright := right.entries_le_nesting
    simp only [Expr.heaviest, Expr.nesting]
    omega
  | .unary _ _ operand | .paren _ operand => by
    have hoperand := operand.entries_le_nesting
    simp only [Expr.heaviest, Expr.nesting]
    omega
  | .conditional branches => by
    simp only [Expr.heaviest, Expr.nesting]
    exact branches.entries_lt_nesting
  | .loop _ condition body => by
    have hcondition := condition.entries_le_nesting
    have hbody := body.entries_le_nesting
    simp only [Expr.heaviest, Expr.nesting]
    omega
  | .function _ _ _ body => by
    have hbody := body.entries_le_nesting
    simp only [Expr.heaviest, Expr.nesting]
    omega

/-- Each conditional that is entered in arguments is one level of the nesting. -/
lemma Expr.entries_le_nestingList : ∀ es : List Expr,
    Expr.heaviestList 1 0 es ≤ Expr.nestingList es
  | [] => Nat.le_refl 0
  | e :: es => by
    have he := e.entries_le_nesting
    have hes := Expr.entries_le_nestingList es
    simp only [Expr.heaviestList, Expr.nestingList]
    omega

/-- The condition of a conditional is a level by itself, and a link is none. -/
lemma Conditional.entries_lt_nesting : ∀ c : Conditional, c.heaviest 1 0 < c.nesting
  | .ifThen _ condition yes => by
    have hcondition := condition.entries_le_nesting
    have hyes := yes.entries_le_nesting
    simp only [Conditional.heaviest, Conditional.nesting]
    omega
  | .ifElse _ condition yes no => by
    have hcondition := condition.entries_le_nesting
    have hyes := yes.entries_le_nesting
    have hno := no.entries_le_nesting
    simp only [Conditional.heaviest, Conditional.nesting]
    omega
  | .elseIf _ condition yes next => by
    have hcondition := condition.entries_le_nesting
    have hyes := yes.entries_le_nesting
    have hnext := next.entries_lt_nesting
    simp only [Conditional.heaviest, Conditional.nesting]
    omega

/-- The statements of a block are one level more than the conditionals entered in them. -/
lemma Block.entries_le_nesting : ∀ b : Block, b.heaviest 1 0 ≤ b.nesting - 1
  | .mk _ stmts => by
    simp only [Block.heaviest, Block.nesting]
    exact Stmt.entries_le_nestingList stmts

/-- Statements are one level more than the conditionals entered in them. -/
lemma Stmt.entries_le_nestingList : ∀ stmts : List Stmt,
    Stmt.heaviestList 1 0 stmts ≤ Stmt.nestingList stmts - 1
  | [] => Nat.le_refl 0
  | stmt :: stmts => by
    have hstmt := stmt.entries_le_nesting
    have hstmts := Stmt.entries_le_nestingList stmts
    simp only [Stmt.heaviestList, Stmt.nestingList]
    omega

/-- The value of a statement is a level by itself. -/
lemma Stmt.entries_le_nesting : ∀ stmt : Stmt, stmt.heaviest 1 0 ≤ stmt.nesting - 1
  | .bind _ _ value | .assign _ _ value | .returnValue _ value | .expr value => by
    simp only [Stmt.heaviest, Stmt.nesting, Nat.add_sub_cancel]
    exact value.entries_le_nesting
  | .returnNothing _ | .breakLoop _ | .continueLoop _ => Nat.le_refl 0

end

/-- The conditionals that are entered in the program of an accepted source keep the limit. -/
lemma Source.entries_lt_of_accepted {src : Source} {p : Program}
    (h : src.parse.accepted = .ok p) : p.entries < maxNesting := by
  have hlevels : Stmt.nestingList p.stmts ≤ maxNesting := Source.nesting_le_of_accepted h
  have hentries := Stmt.entries_le_nestingList p.stmts
  have hpos : 0 < maxNesting := by decide
  unfold Program.entries
  omega

/-- A way goes through conditionals that are entered and such that are linked. -/
lemma Program.conditionals_le (p : Program) : p.conditionals ≤ p.entries + p.links :=
  Stmt.heaviestList_add_le 1 0 0 1 p.stmts

/-! ### Places play no part -/

section Places

variable (entry link : Nat) (f : Span → Span)

mutual

/-- The heaviest way does not depend on places. -/
lemma Expr.heaviest_mapSpans : ∀ e : Expr,
    (e.mapSpans f).heaviest entry link = e.heaviest entry link
  | .number .. | .text .. | .boolean .. | .null .. | .name .. => by
    simp only [Expr.mapSpans, Expr.heaviest]
  | .call _ callee args => by
    simp only [Expr.mapSpans, Expr.heaviest, callee.heaviest_mapSpans,
      Expr.heaviestList_mapSpans args]
  | .binary _ _ left right => by
    simp only [Expr.mapSpans, Expr.heaviest, left.heaviest_mapSpans, right.heaviest_mapSpans]
  | .unary _ _ operand | .paren _ operand => by
    simp only [Expr.mapSpans, Expr.heaviest, operand.heaviest_mapSpans]
  | .conditional branches => by
    simp only [Expr.mapSpans, Expr.heaviest, branches.heaviest_mapSpans]
  | .loop _ condition body => by
    simp only [Expr.mapSpans, Expr.heaviest, condition.heaviest_mapSpans, body.heaviest_mapSpans]
  | .function _ _ _ body => by
    simp only [Expr.mapSpans, Expr.heaviest, body.heaviest_mapSpans]

/-- The heaviest way into arguments does not depend on places. -/
lemma Expr.heaviestList_mapSpans : ∀ es : List Expr,
    Expr.heaviestList entry link (Expr.mapSpansList f es) = Expr.heaviestList entry link es
  | [] => rfl
  | e :: es => by
    simp only [Expr.mapSpansList, Expr.heaviestList, e.heaviest_mapSpans,
      Expr.heaviestList_mapSpans es]

/-- The heaviest way into a conditional does not depend on places. -/
lemma Conditional.heaviest_mapSpans : ∀ c : Conditional,
    (c.mapSpans f).heaviest entry link = c.heaviest entry link
  | .ifThen _ condition yes => by
    simp only [Conditional.mapSpans, Conditional.heaviest, condition.heaviest_mapSpans,
      yes.heaviest_mapSpans]
  | .ifElse _ condition yes no => by
    simp only [Conditional.mapSpans, Conditional.heaviest, condition.heaviest_mapSpans,
      yes.heaviest_mapSpans, no.heaviest_mapSpans]
  | .elseIf _ condition yes next => by
    simp only [Conditional.mapSpans, Conditional.heaviest, condition.heaviest_mapSpans,
      yes.heaviest_mapSpans, next.heaviest_mapSpans]

/-- The heaviest way into a block does not depend on places. -/
lemma Block.heaviest_mapSpans : ∀ b : Block,
    (b.mapSpans f).heaviest entry link = b.heaviest entry link
  | .mk _ stmts => by
    simp only [Block.mapSpans, Block.heaviest, Stmt.heaviestList_mapSpans stmts]

/-- The heaviest way into statements does not depend on places. -/
lemma Stmt.heaviestList_mapSpans : ∀ stmts : List Stmt,
    Stmt.heaviestList entry link (Stmt.mapSpansList f stmts) = Stmt.heaviestList entry link stmts
  | [] => rfl
  | stmt :: stmts => by
    simp only [Stmt.mapSpansList, Stmt.heaviestList, stmt.heaviest_mapSpans,
      Stmt.heaviestList_mapSpans stmts]

/-- The heaviest way into a statement does not depend on places. -/
lemma Stmt.heaviest_mapSpans : ∀ stmt : Stmt,
    (stmt.mapSpans f).heaviest entry link = stmt.heaviest entry link
  | .bind _ _ value | .assign _ _ value | .returnValue _ value | .expr value => by
    simp only [Stmt.mapSpans, Stmt.heaviest, value.heaviest_mapSpans]
  | .returnNothing _ | .breakLoop _ | .continueLoop _ => rfl

end

end Places

/-! ### Ladders of conditionals -/

/-- Conditionals, each in the block of the one around it, and links from the innermost one. -/
def Conditional.ladder : (inner links : Nat) → Conditional
  | 0, 0 => .ifThen .synthetic (.null .synthetic) (.mk .synthetic [])
  | 0, links + 1 => .elseIf .synthetic (.null .synthetic) (.mk .synthetic []) (ladder 0 links)
  | inner + 1, links =>
    .ifThen .synthetic (.null .synthetic)
      (.mk .synthetic [.expr (.conditional (ladder inner links))])

/-- A text of such conditionals. -/
def Conditional.ladderText : (inner links : Nat) → String
  | 0, 0 => "kama (tupu) \x7b\x7d"
  | 0, links + 1 => "kama (tupu) \x7b\x7d sivyo " ++ ladderText 0 links
  | inner + 1, links => "kama (tupu) \x7b" ++ ladderText inner links ++ ";\x7d"

namespace Conditional

variable (inner links : Nat)

/-- A ladder is canonical. -/
lemma isCanonical_ladder : (ladder inner links).isCanonical := by
  fun_induction ladder inner links with
  | case1 => rfl
  | case2 links ih => simpa [isCanonical, Expr.isCanonical, Block.isCanonical, Stmt.areCanonical]
  | case3 inner links ih =>
    simpa [isCanonical, Expr.isCanonical, Block.isCanonical, Stmt.areCanonical, Stmt.isCanonical]

/-- Links are no levels of a ladder. -/
lemma nesting_ladder : (ladder inner links).nesting = inner + 1 := by
  fun_induction ladder inner links with
  | case1 => rfl
  | case2 links ih =>
    simp [Conditional.nesting, Expr.nesting, Block.nesting, Stmt.nestingList, ih]
  | case3 inner links ih =>
    simp [Conditional.nesting, Expr.nesting, Block.nesting, Stmt.nestingList, Stmt.nesting, ih]

/-- The heaviest way through a ladder goes to its end. -/
lemma heaviest_ladder (entry link : Nat) :
    (ladder inner links).heaviest entry link = inner * entry + links * link := by
  fun_induction ladder inner links with
  | case1 => simp [heaviest, Expr.heaviest, Block.heaviest, Stmt.heaviestList]
  | case2 links ih =>
    simp [heaviest, Expr.heaviest, Block.heaviest, Stmt.heaviestList, ih, Nat.add_mul]
  | case3 inner links ih =>
    simp only [heaviest, Expr.heaviest, Block.heaviest, Stmt.heaviestList, Stmt.heaviest, ih,
      Nat.max_zero, Nat.zero_max, Nat.succ_mul]
    omega

end Conditional

/-! ### Texts of ladders -/

namespace LaidOut

variable {ks : List TokenKind} {rest : List Char}

/-- A reserved word may stand before a layout that does not continue it. -/
lemma keyword (k : Keyword) (hends : ∀ c ∈ rest.head?, isNamePart c = false)
    (h : LaidOut ks rest) : LaidOut (.keyword k :: ks) (k.text.toList ++ rest) :=
  .token .nil (.keyword k) hends h

/-- A sign that joins no other may stand before any layout. -/
lemma symbol (s : Symbol) (halone : ∀ c, s.joins c = false) (h : LaidOut ks rest) :
    LaidOut (.symbol s :: ks) (s.text.toList ++ rest) :=
  .token .nil (.symbol s) (fun c _ => halone c) h

/-- A blank may stand before a layout. -/
lemma space (h : LaidOut ks rest) : LaidOut ks (' ' :: rest) :=
  Filler.laidOut (.blank rfl .nil) h

/-- What a conditional begins with, up to its block. -/
lemma beginConditional (h : LaidOut ks rest) :
    LaidOut (.keyword .kama :: .symbol .openParen ::
        (Expr.tokens (.null .synthetic) ++ .symbol .closeParen :: .symbol .openBrace :: ks))
      ("kama (tupu) \x7b".toList ++ rest) := by
  have hblock := (h.symbol .openBrace fun _ => rfl).space.symbol .closeParen fun _ => rfl
  have hnull := hblock.keyword .tupu (by rintro c ⟨⟩; rfl)
  have hcondition := (hnull.symbol .openParen fun _ => rfl).space
  have hhead := hcondition.keyword .kama (by rintro c ⟨⟩; rfl)
  simpa [Expr.tokens, Keyword.text, Symbol.text] using hhead

end LaidOut

/-- The text of a ladder may stand before any layout. -/
lemma Conditional.laidOut_ladder (inner links : Nat) {ks : List TokenKind} {rest : List Char}
    (h : LaidOut ks rest) :
    LaidOut ((ladder inner links).tokens ++ ks) ((ladderText inner links).toList ++ rest) := by
  fun_induction ladder inner links generalizing ks rest with
  | case1 =>
    have hend := h.symbol .closeBrace fun _ => rfl
    simpa [tokens, Block.tokens, Stmt.tokensList, ladderText, Symbol.text] using
      hend.beginConditional
  | case2 links ih =>
    have hlink := (ih h).space.keyword .sivyo (by rintro c ⟨⟩; rfl)
    have hend := hlink.space.symbol .closeBrace fun _ => rfl
    simpa [tokens, Block.tokens, Stmt.tokensList, ladderText, Symbol.text, Keyword.text] using
      hend.beginConditional
  | case3 inner links ih =>
    have hend := (h.symbol .closeBrace fun _ => rfl).symbol .semicolon fun _ => rfl
    simpa [tokens, Block.tokens, Stmt.tokensList, Stmt.tokens_expr, Expr.tokens, ladderText,
      Symbol.text] using (ih hend).beginConditional

/-! ### Sources of ladders -/

/-- Statements are read from the tokens that they are printed as. -/
lemma Stmt.readFrom_tokensList {stmts : List Stmt}
    (h : ∀ stmt ∈ stmts, stmt.ReadBy (Parser.expression maxNesting)) :
    Stmt.ReadFrom (Stmt.tokensList stmts) stmts := by
  intro c rounds hkinds hfaults hrounds
  let printed : Cursor := .ofKinds (Stmt.tokensList stmts ++ [.endOfFile])
  have habreast : (Comparison.placeless [] []).Abreast False printed c :=
    ⟨Comparison.rest_of_ended (Cursor.kinds_ofKinds _) hkinds, False.elim, by rw [hfaults]; rfl⟩
  have houtcome := Comparison.programStatements_outcome
    (Comparison.parallel_expression maxNesting) habreast (Nat.le_refl _) hrounds
  have hlength : (Stmt.tokensList stmts).length < printed.rest.length := by
    simp [printed]
  have hread := Parser.reads_programStatements h hlength
  unfold Parser.Reads at hread
  rw [hread] at houtcome
  cases houtcome with
  | ok hsame h =>
    rw [Stmt.mapSpansList_mapSpansList] at hsame
    exact ⟨hsame.symm, ErrorList.eq_empty_of_map h.faults⟩
  | lost hlost => exact absurd hlost (Nat.not_succ_le_zero 0)

namespace Source

variable (inner links : Nat)

/-- A source that holds one ladder. -/
def ladder (name : String) : Source :=
  ⟨name, Conditional.ladderText inner links ++ ";"⟩

/-- A ladder that is not too deep is read, whatever its links. -/
lemma exists_accepted_ladder (hinner : inner + 1 < maxNesting) (name : String) :
    ∃ p, (ladder inner links name).parse.accepted = .ok p ∧
      ∀ entry link, Stmt.heaviestList entry link p.stmts =
        (inner + 1) * entry + links * link := by
  let stmts : List Stmt := [.expr (.conditional (.ladder inner links))]
  have hcanonical : Stmt.areCanonical stmts := by
    simp [stmts, Stmt.areCanonical, Stmt.isCanonical, Expr.isCanonical,
      Conditional.isCanonical_ladder]
  have hnesting : Stmt.nestingList stmts ≤ maxNesting := by
    simp only [stmts, Stmt.nestingList, Stmt.nesting, Expr.nesting, Conditional.nesting_ladder,
      Nat.max_zero]
    exact hinner
  have hread := Stmt.readFrom_tokensList (Stmt.readByList stmts maxNesting hcanonical hnesting)
  have hlaid : LaidOut (Stmt.tokensList stmts) (ladder inner links name).text.toList := by
    have hend : LaidOut [] [] := .done (.filler .nil)
    have hladder := Conditional.laidOut_ladder inner links (hend.symbol .semicolon fun _ => rfl)
    simpa [stmts, ladder, Stmt.tokensList, Stmt.tokens_expr, Expr.tokens, Symbol.text] using hladder
  obtain ⟨haccepted, hsame⟩ := accepted_of_readFrom hlaid hread
  refine ⟨_, haccepted, fun entry link => ?_⟩
  rw [← Stmt.heaviestList_mapSpans entry link .forget, hsame, Stmt.heaviestList_mapSpans]
  simp only [stmts, Stmt.heaviestList, Stmt.heaviest, Expr.heaviest, Conditional.heaviest_ladder,
    Nat.max_zero, Nat.succ_mul]
  omega

/-- The limit of the nesting bounds the conditionals that are entered, and links come on top of it.
If no way into an accepted program has more than the given number of links, then on each way there
are fewer conditionals than the limit and the links together.  So all of them keep the limit where
at most one is linked.  Nothing bounds the links themselves: for every number of them there is a
source that reaches the bound. -/
theorem conditionals_of_accepted (links : Nat) :
    (∀ (src : Source) (p : Program), src.parse.accepted = .ok p → p.links ≤ links →
      p.entries < maxNesting ∧ p.conditionals < maxNesting + links) ∧
    ∃ p, (ladder (maxNesting - 2) links "").parse.accepted = .ok p ∧ p.links = links ∧
      p.entries + 1 = maxNesting ∧ p.conditionals + 1 = maxNesting + links := by
  constructor
  · intro src p haccepted hlinks
    have hentries := entries_lt_of_accepted haccepted
    have hsum := p.conditionals_le
    exact ⟨hentries, by omega⟩
  · have hinner : maxNesting - 2 + 1 + 1 = maxNesting := by decide
    obtain ⟨p, haccepted, hheaviest⟩ :=
      exists_accepted_ladder (maxNesting - 2) links (Nat.lt_of_succ_le hinner.le) ""
    refine ⟨p, haccepted, ?_, ?_, ?_⟩
    · rw [Program.links, hheaviest]
      omega
    · rw [Program.entries, hheaviest]
      omega
    · rw [Program.conditionals, hheaviest]
      omega

/-- Sixty-four links make one conditional more on a way than expressions may be nested. -/
theorem maxNesting_lt_conditionals_ladder :
    ∃ p, (ladder 0 64 "").parse.accepted = .ok p ∧ maxNesting < p.conditionals := by
  obtain ⟨p, haccepted, hheaviest⟩ := exists_accepted_ladder 0 64 (by decide) ""
  refine ⟨p, haccepted, ?_⟩
  rw [Program.conditionals, hheaviest]
  decide

end Source

end Lugha
