import Lugha.Proofs.Confinement
import Lugha.Proofs.Lexemes
import Lugha.Proofs.Lines

/-!
# Errors point into the text

Every place that a syntax error names is the place of a character of the text or of its end, and
the line that it shows is the line of the text on which it begins.

Places are counted while tokens are read and lines are cut from the whole text, so the two have to
agree on what a line is.  That the spans of tokens and lexical faults lie inside the text follows
from how the text is cut into lexemes.  Merging does not lead out of the text, so the spans at which
the parser reports faults lie inside as well.
-/

namespace Lugha

/-! ### Spans inside a text -/

/-- The place of a character of a text or of its end. -/
def Position.InText (text : List Char) (p : Position) : Prop :=
  ∃ before, before <+: text ∧ p = .following before

/-- A span that begins and ends inside a text, and does not end before it begins. -/
structure Span.Inside (text : List Char) (s : Span) : Prop where
  first : s.first.InText text
  last : s.last.InText text
  ordered : s.first.Before s.last

namespace Position.InText

variable {text : List Char} {p q : Position}

/-- The earlier of two places. -/
lemma earlier (hp : p.InText text) (hq : q.InText text) : (p.earlier q).InText text := by
  unfold Position.earlier
  split
  · exact hp
  · exact hq

/-- The later of two places. -/
lemma later (hp : p.InText text) (hq : q.InText text) : (p.later q).InText text := by
  unfold Position.later
  split
  · exact hq
  · exact hp

/-- Lines and columns are counted from one. -/
lemma one_le (h : p.InText text) : 1 ≤ p.line ∧ 1 ≤ p.column := by
  obtain ⟨before, -, rfl⟩ := h
  exact ⟨Nat.succ_pos _, Nat.succ_pos _⟩

/-- There are no more lines than newlines in the text, and one more. -/
lemma line_le (h : p.InText text) : p.line ≤ text.count '\n' + 1 := by
  obtain ⟨before, hbefore, rfl⟩ := h
  exact Nat.succ_le_succ (hbefore.sublist.count_le '\n')

/-- Lines and columns are no more than characters, and one more. -/
lemma le_length (h : p.InText text) : p.line ≤ text.length + 1 ∧ p.column ≤ text.length + 1 := by
  refine ⟨h.line_le.trans (Nat.succ_le_succ List.count_le_length), ?_⟩
  obtain ⟨before, hbefore, rfl⟩ := h
  refine Nat.succ_le_succ ?_
  calc (before.reverse.takeWhile (· ≠ '\n')).length
      ≤ before.reverse.length := (List.takeWhile_prefix _).length_le
    _ = before.length := List.length_reverse
    _ ≤ text.length := hbefore.length_le

end Position.InText

/-- Going back from behind a piece of text leads to a place in the text. -/
lemma Position.inText_back {text before piece : List Char} (h : before ++ piece <+: text)
    (hpiece : piece ≠ []) : (Position.following (before ++ piece)).back.InText text := by
  obtain ⟨init, c, rfl⟩ := (List.eq_nil_or_concat' piece).resolve_left hpiece
  rw [← List.append_assoc] at h ⊢
  have hstep : following (before ++ init ++ [c]) = (following (before ++ init)).step c :=
    (past_following (before ++ init) [c]).symm
  by_cases hc : c = '\n'
  · -- behind a newline there is nothing to go back to
    refine ⟨before ++ init ++ [c], h, ?_⟩
    rw [hstep, step, if_pos hc]
    rfl
  · refine ⟨before ++ init, (List.prefix_append _ _).trans h, ?_⟩
    rw [hstep, back_step (Nat.succ_pos _) hc]

namespace Span

variable {text : List Char}

/-- A piece of a text. -/
lemma inside_over {before piece : List Char} (h : before ++ piece <+: text) (hpiece : piece ≠ []) :
    (Span.over before piece).Inside text where
  first := ⟨before, (List.prefix_append _ _).trans h, rfl⟩
  last := Position.inText_back h hpiece
  ordered := (Position.following_precedes before hpiece).before_back

/-- A single place. -/
lemma inside_point {before : List Char} (h : before <+: text) :
    (point (.following before)).Inside text :=
  ⟨⟨before, h, rfl⟩, ⟨before, h, rfl⟩, .refl _⟩

/-- Merging does not lead out of the text. -/
lemma mergeClosed_inside (text : List Char) : MergeClosed (Inside text) := by
  intro s t hs ht
  refine ⟨hs.first.earlier ht.first, hs.last.later ht.last, ?_⟩
  have hfirst : (s.first.earlier t.first).Before s.first := by
    unfold Position.earlier
    split
    · exact .refl _
    · next h => exact (Position.not_before.1 h).before
  have hlast : s.last.Before (s.last.later t.last) := by
    unfold Position.later
    split
    · next h => exact h
    · exact .refl _
  exact (hfirst.trans hs.ordered).trans hlast

end Span

/-! ### Tokens and lexical faults -/

/-- A word is not empty. -/
lemma Word.Proper.text_ne_nil {w : Word} {rest : List Char} (h : w.Proper rest) : w.text ≠ [] := by
  cases w with
  | plain k w => exact h.1.ne_nil
  | quoted x => exact List.cons_ne_nil _ _
  | stray c => exact List.cons_ne_nil _ _

section Inside

variable {text before : List Char}

/-- The faults of units stand where the units stand. -/
lemma Quotation.unitFaults_inside {units : List TextUnit}
    (h : before ++ units.flatMap TextUnit.text <+: text) :
    ∀ f ∈ unitFaults before units, f.span.Inside text := by
  intro f hf
  obtain ⟨⟨b, u⟩, hplaced, hfault⟩ := List.mem_flatMap.1 hf
  obtain ⟨ys, zs, rfl, rfl⟩ := eq_append_of_mem_placed hplaced
  cases u with
  | plain c => cases hfault
  | escape letter c => cases hfault
  | invalid c =>
    obtain rfl := List.mem_singleton.1 hfault
    refine Span.inside_over (List.IsPrefix.trans ?_ h) (List.cons_ne_nil _ _)
    simp [TextUnit.text]

/-- The faults of a word stand where the word stands. -/
lemma Word.faults_inside {w : Word} (h : before ++ w.text <+: text) :
    ∀ f ∈ w.faults before, f.span.Inside text := by
  intro f hf
  cases w with
  | plain k w => cases hf
  | quoted x =>
    rcases List.mem_append.1 hf with hf | hf
    · refine Quotation.unitFaults_inside (List.IsPrefix.trans ?_ h) f hf
      simp [Word.text, Quotation.word, Quotation.body]
    · unfold Quotation.endFaults at hf
      split at hf
      · cases hf
      · obtain rfl := List.mem_singleton.1 hf
        exact Span.inside_over h (List.cons_ne_nil _ _)
  | stray c =>
    obtain rfl := List.mem_singleton.1 hf
    exact Span.inside_over h (List.cons_ne_nil _ _)

/-- The faults of the last gap stand in it. -/
lemma LastGap.faults_inside {last rest : List Char} {left : List Fault}
    (h : LastGap before last rest left) (htext : before ++ last <+: text) :
    ∀ f ∈ left, f.span.Inside text := by
  cases h with
  | stop | close => exact List.forall_mem_nil _
  | openComment hgap hnote =>
    refine List.forall_mem_singleton.2 (Span.inside_over ?_ (List.cons_ne_nil _ _))
    rwa [List.append_assoc]

/-- The tokens and the faults of a text that was cut stand inside it. -/
lemma Cut.inside {last rest : List Char} {left : List Fault} {xs : List Lexeme}
    (h : Cut last rest left before xs)
    (htext : before ++ (xs.flatMap Lexeme.text ++ last) <+: text) :
    (∀ t ∈ Lexeme.tokens before xs, t.span.Inside text) ∧
      ∀ f ∈ Lexeme.allFaults before xs ++ left, f.span.Inside text := by
  induction h with
  | done h => exact ⟨List.forall_mem_nil _, h.faults_inside htext⟩
  | @lexeme before x xs hgap hword h ih =>
    have hrest : before ++ x.text ++ (xs.flatMap Lexeme.text ++ last) <+: text := by
      simpa using htext
    have hx : before ++ x.gap ++ x.word.text <+: text := by
      refine List.IsPrefix.trans ?_ hrest
      simp [Lexeme.text]
    obtain ⟨htokens, hfaults⟩ := ih hrest
    constructor
    · intro t ht
      simp only [Lexeme.tokens, placed, List.filterMap_cons] at ht htokens
      cases htoken : x.token? before with
      | none => exact htokens t (by simpa [htoken] using ht)
      | some u =>
        rw [htoken] at ht
        rcases List.mem_cons.1 ht with rfl | ht
        · obtain ⟨kind, -, rfl⟩ := Option.map_eq_some_iff.1 htoken
          exact Span.inside_over hx hword.text_ne_nil
        · exact htokens t ht
    · simp only [Lexeme.allFaults, placed, List.flatMap_cons, List.append_assoc] at hfaults ⊢
      exact List.forall_mem_append.2 ⟨Word.faults_inside hx, hfaults⟩

end Inside

/-- The tokens and the faults of a text stand inside it. -/
lemma scan_inside (text : String) :
    (∀ t ∈ (scan text).1, t.span.Inside text.toList) ∧
      ∀ f ∈ (scan text).2.kept, f.span.Inside text.toList := by
  obtain ⟨d, hscan⟩ := exists_dissection_scan text
  have hread : d.lexemes.flatMap Lexeme.text ++ d.last <+: text.toList := by
    conv_rhs => rw [d.eq_append, ← List.append_assoc]
    exact List.prefix_append _ _
  obtain ⟨htokens, hfaults⟩ := d.cut.inside hread
  rw [hscan]
  refine ⟨List.forall_mem_append.2 ⟨htokens, ?_⟩, fun f hf => hfaults f (List.mem_of_mem_take hf)⟩
  exact List.forall_mem_singleton.2 (Span.inside_point hread)

/-! ### Diagnostics -/

/-- A diagnostic that points into a source. -/
structure Diagnostic.PointsInto (d : Diagnostic) (s : Source) : Prop where
  file : d.file = s.name
  line_pos : 1 ≤ d.span.first.line
  line_le_line : d.span.first.line ≤ d.span.last.line
  line_le_lineCount : d.span.last.line ≤ s.lineCount
  column_pos : 1 ≤ d.span.first.column ∧ 1 ≤ d.span.last.column
  /-- it does not end before it begins, and both ends are places of the text -/
  inside : d.span.Inside s.text.toList
  /-- coordinates stay as small as the text -/
  small : max d.span.first.line d.span.first.column ≤ s.text.length + 1 ∧
    max d.span.last.line d.span.last.column ≤ s.text.length + 1
  /-- the line on which it begins exists and is shown -/
  line_eq : s.line? d.span.first.line = some d.sourceLine
  /-- that line is shown up to the carriage returns at its end -/
  shown : ∃ line k, Text.IsLine d.span.first.line line s.text.toList ∧
    line = d.sourceLine.toList ++ List.replicate k '\r' ∧
    ∀ c ∈ d.sourceLine.toList.getLast?, c ≠ '\r'

/-- A fault that stands inside a source is written out so that it points into it. -/
lemma Source.diagnose_pointsInto {s : Source} {f : Fault} (h : f.span.Inside s.text.toList) :
    (s.diagnose f).PointsInto s := by
  have hlines : f.span.first.line ≤ f.span.last.line := by
    rcases h.ordered with hlt | ⟨heq, -⟩
    · exact Nat.le_of_lt hlt
    · exact Nat.le_of_eq heq
  have hcount : f.span.last.line ≤ s.lineCount := s.lineCount_eq ▸ h.last.line_le
  obtain ⟨line, hline, hget⟩ := s.exists_line h.first.one_le.1 (hlines.trans hcount)
  have hshown : (s.diagnose f).sourceLine = String.ofList (Text.dropReturns line) := by
    rw [Source.diagnose, hget, Option.getD_some]
  obtain ⟨⟨k, hreturns⟩, hlast⟩ := Text.dropReturns_spec line
  refine ⟨rfl, h.first.one_le.1, hlines, hcount, ⟨h.first.one_le.2, h.last.one_le.2⟩, h, ?_,
    hget.trans (congrArg some hshown.symm), line, k, hline, ?_, ?_⟩
  · rw [← String.length_toList]
    exact ⟨Nat.max_le.2 h.first.le_length, Nat.max_le.2 h.last.le_length⟩
  · rw [hshown, String.toList_ofList]
    exact hreturns
  · rw [hshown, String.toList_ofList]
    exact hlast

/-- Every syntax error points into the source: it names the source, it begins on a line of the text
and does not end before it begins, and it shows the line on which it begins. -/
theorem Source.pointsInto_of_mem_diagnostics (s : Source) :
    ∀ d ∈ s.parse.diagnostics.kept, d.PointsInto s := by
  intro d hd
  obtain ⟨f, hf, rfl⟩ := List.mem_map.1 hd
  obtain ⟨htokens, hlexical⟩ := scan_inside s.text
  have hgrammatical := forall_faults_parseTokens (Span.mergeClosed_inside s.text.toList)
    (Span.inside_point List.nil_prefix) htokens
  exact diagnose_pointsInto (ErrorList.forall_append hlexical hgrammatical f hf)

/-- A quotation with an invalid escape is never closed and runs over lines that end in both ways. -/
theorem Source.pointsInto_of_mem_diagnostics_crlf :
    let s : Source := ⟨"a.nr", "x\r\r\n y ='\\q\r\n\n"⟩
    let d : Diagnostic := ⟨"a.nr", 102, "unterminated string literal", ⟨⟨2, 5⟩, ⟨4, 1⟩⟩, " y ='\\q",
      some "close the string with '"⟩
    d ∈ s.parse.diagnostics.kept ∧ d.PointsInto s := by
  intro s d
  have hd : d ∈ s.parse.diagnostics.kept := by decide +kernel
  exact ⟨hd, s.pointsInto_of_mem_diagnostics d hd⟩

end Lugha
