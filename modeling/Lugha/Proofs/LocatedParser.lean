import Lugha.Proofs.ErrorHistory
import Lugha.Proofs.Located
import Lugha.Proofs.Walk

/-!
# The parser gives exact spans

Every tree that the parser gives has exact spans, also where something is wrong with the text.  The
parser takes the spans of single tokens and merges the first with the last of a tree, and among
tokens in order this is the span of all of them.  So exact spans can be watched, from any cursor
before which tokens in order are read.

Nothing is passed over in silence.  The tokens that were read and belong to no tree are semicolons,
closing braces that were reported, and those of statements for which a fault was reported.
-/

namespace Lugha

/-- Spans are exact, where tokens are read in order. -/
def Placement.exact : Placement where
  knows c := ∀ {c' : Cursor} {ts : List Token} {fs : List Fault}, c.Consumes c' ts fs → InOrder ts
  placed := Span.Covers
  allowed _ := True
  knows_of_consumes hc hread _ _ _ hlater := (hc (hread.trans hlater)).right
  placed_token _ _ _ := Token.covers _
  placed_merge hc hread hs hs' hfirst hlast := hs.merge hs' (hc hread) hfirst hlast
  allowed_span _ := trivial
  allowed_of_placed _ := trivial

/-- Tokens before a mark of the end are also before a later one. -/
lemma isPrefix_of_noEnd {ts us vs : List Token} {t : Token} (ht : t.kind = .endOfFile)
    (hnoEnd : ∀ u ∈ us, u.kind ≠ .endOfFile) (h : ts ++ [t] = us ++ vs) : us <+: ts := by
  rcases List.append_eq_append_iff.1 h with ⟨ws, hus, hvs⟩ | ⟨ws, rfl, -⟩
  · cases ws with
    | nil => exact ⟨[], by simpa using hus⟩
    | cons w ws =>
      obtain ⟨rfl, -⟩ := List.cons.inj hvs
      exact absurd ht (hnoEnd t (by simp [hus]))
  · exact List.prefix_append us ws

/-- If the tokens are at an end where some were read, only the mark of the end is left. -/
lemma Cursor.rest_of_atEnd {c c' : Cursor} {tokens ts : List Token} {fs : List Fault} {t : Token}
    (hread : c.Consumes c' ts fs) (hrest : c.rest = tokens ++ [t])
    (hnoEnd : ∀ u ∈ tokens, u.kind ≠ .endOfFile) (ht : t.kind = .endOfFile) (hend : c'.atEnd) :
    c'.rest = [t] := by
  obtain ⟨us, rfl⟩ := isPrefix_of_noEnd ht hread.noEnd (hrest.symm.trans hread.rest)
  have hlater : c'.rest = us ++ [t] := by simpa [hread.rest] using hrest
  cases us with
  | nil => exact hlater
  | cons u us =>
    have hkind : c'.kind = u.kind := by simp [Cursor.kind, Cursor.peek, hlater]
    exact absurd (hkind ▸ Cursor.atEnd_iff.1 hend) (hnoEnd u (by simp))

/-- The spans of a program are exact.  Whatever is wrong with its source, the statements that were
read are derived from its first tokens, each of them and of their parts with the span of its own
tokens, and the spans are nested like the trees.  All tokens are read up to the mark of the end,
unless the error list is full, and none is passed over without a semicolon or a report. -/
theorem Source.located_parse (src : Source) :
    ∃ ts rest faults, (scan src.text).1 = ts ++ rest ∧ InOrder ts ∧
      (∀ t ∈ ts, t.kind ≠ .endOfFile) ∧
      (parseTokens (scan src.text).1).2 = .ofReports faults ∧
      (rest.map (·.kind) = [.endOfFile] ∨ ErrorList.capacity ≤ faults.length) ∧
      Stmt.DerivedList Span.Covers true maxNesting src.parse.program.stmts ts faults ∧
      src.parse.program.Nested := by
  obtain ⟨tokens, q, hscan, hord, hbefore⟩ :=
    inOrder_scanFrom .empty .origin src.text.toList Nat.one_pos
  have htokens : (scan src.text).1 = tokens ++ [endToken q] := hscan
  let start := Cursor.ofTokens (scan src.text).1
  have hstart : start.rest = tokens ++ [endToken q] := by
    simp [start, htokens, Cursor.ofTokens, endToken, TokenKind.isEnd]
  have hknown : Placement.exact.knows start := fun hread =>
    hord.sublist (isPrefix_of_noEnd rfl hread.noEnd (hstart.symm.trans hread.rest)).sublist
  obtain ⟨ts, faults, hread, -, hderived⟩ := Parser.derived_topLevel
    (Parser.yields_expression Placement.exact.watch_closed maxNesting) start.rest.length hknown
  have hreports : (parseTokens (scan src.text).1).2 = .ofReports faults :=
    hread.faults.trans (ErrorList.foldl_push_ofReports [] faults)
  have hstmts : Stmt.DerivedList Span.Covers true maxNesting src.parse.program.stmts ts faults :=
    hderived
  have hts : InOrder ts := hknown hread
  refine ⟨ts, _, faults, htokens.trans (hstart.symm.trans hread.rest), hts, hread.noEnd, hreports,
    ?_, hstmts, hstmts.nested hts, hstmts.scattered.pairwise hts⟩
  rcases Parser.programStatements_stops (Parser.derives_expression maxNesting)
    (Nat.le_refl start.rest.length) with hend | hfull
  · left
    rw [Cursor.rest_of_atEnd hread hstart (fun t ht => (hbefore t ht).2) rfl hend]
    rfl
  · right
    have htotal : ErrorList.capacity ≤ (parseTokens (scan src.text).1).2.total :=
      of_decide_eq_true hfull
    rw [hreports] at htotal
    exact htotal

-- One statement inside the function cannot be read, and a stray brace stands before the call.
example :
    let src : Source := ⟨"faulty", "fanya f = unda(x) \x7b 1 + ; x \x7d;\n\x7d f(2) ;"⟩
    src.parse.diagnostics.total = 2 ∧
      src.parse.program.stmts.map Stmt.span = [⟨⟨1, 1⟩, ⟨1, 29⟩⟩, ⟨⟨2, 3⟩, ⟨2, 6⟩⟩] := by
  decide +kernel

end Lugha
