import Lugha.Proofs.Coordinates
import Lugha.Proofs.Scanning

/-!
# Tokens tile a text

A text that is read without a fault is cut into pieces, one for each token: the filler before
the token and the word that it was read from.  The spans of the tokens are the places of the
words, so that the text can be taken apart by the spans alone: what they delimit are the words,
and what is left over is filler.

A word is the token on its own account.  Read alone, it gives the token again, and two words
that touch give both tokens and no longer one.
-/

namespace Lugha

/-- A token, the word that it was read from and the filler before it. -/
structure Piece where
  gap : List Char
  word : List Char
  token : Token

/-- The text of a piece. -/
def Piece.text (x : Piece) : List Char := x.gap ++ x.word

/-- A text holds exactly the given tokens when it is read alone, and it has no faults. -/
def ReadsAs (cs : List Char) (ks : List TokenKind) : Prop :=
  (scan (String.ofList cs)).1.map (·.kind) = ks ++ [.endOfFile] ∧
    (scan (String.ofList cs)).2 = .empty

/-- A text that consists of pieces, with spans that say where their words stand, and of filler
after the last one. -/
structure Tiling (text : String) (pieces : List Piece) (closing : List Char) : Prop where
  /-- The pieces and what closes the text are the whole text. -/
  text_eq : text.toList = pieces.flatMap Piece.text ++ closing
  /-- Blanks and comments stand before the words. -/
  gaps : ∀ x ∈ pieces, Filler x.gap
  /-- Blanks and comments stand after the last word. -/
  closes : Closing closing
  /-- The span of a token goes from the first to the last character of its word. -/
  spans : ∀ xs x ys, pieces = xs ++ x :: ys →
    x.token.span = .around (xs.flatMap Piece.text ++ x.gap) x.word
  /-- The span of a token delimits its word. -/
  slices : ∀ x ∈ pieces, x.token.span.slice text.toList = x.word
  /-- Spans are in the order of the tokens and do not overlap. -/
  ordered : pieces.Pairwise fun x y => x.token.span.last.Precedes y.token.span.first
  /-- A word alone is read as its token. -/
  alone : ∀ x ∈ pieces, ReadsAs x.word [x.token.kind]
  /-- Two words that touch are read as their tokens. -/
  touching : pieces.IsChain fun x y =>
    y.gap = [] → ReadsAs (x.word ++ y.word) [x.token.kind, y.token.kind]
  /-- The mark of the end is read from no word. -/
  words : ∀ x ∈ pieces, x.token.kind ≠ .endOfFile

/-! ### Pieces of a layout -/

/-- Pieces that follow the given text and are followed by what closes it, as the reader finds
them. -/
inductive Tiled (closing : List Char) : List Char → List Piece → Prop
  | done {before : List Char} (h : Closing closing) : Tiled closing before []
  | piece {before : List Char} {x : Piece} {pieces : List Piece} (hgap : Filler x.gap)
      (hword : x.token.kind.Written x.word)
      (hends : x.token.kind.EndsBefore x.word (pieces.flatMap Piece.text ++ closing))
      (hspan : x.token.span = .around (before ++ x.gap) x.word)
      (h : Tiled closing (before ++ x.text) pieces) : Tiled closing before (x :: pieces)

/-- A written token is not empty. -/
lemma TokenKind.Written.ne_nil {k : TokenKind} {w : List Char} (h : k.Written w) : w ≠ [] := by
  obtain ⟨c, cs, rfl, -⟩ := h.head_not_isWhite
  exact List.cons_ne_nil c cs

/-- A written token does not end with a newline. -/
lemma TokenKind.Written.getLast_ne_newline {k : TokenKind} {w : List Char} (h : k.Written w) :
    ∀ c ∈ w.getLast?, c ≠ '\n' := by
  rintro c hc rfl
  cases h.getLast_not_isWhite '\n' hc

/-- A written token is not the mark of the end. -/
lemma TokenKind.Written.ne_endOfFile {k : TokenKind} {w : List Char} (h : k.Written w) :
    k ≠ .endOfFile := by
  rintro rfl
  cases h

/-- A layout is cut into pieces whose tokens are read. -/
lemma LaidOut.tiled {ks : List TokenKind} {cs : List Char} (h : LaidOut ks cs)
    (before : List Char) :
    ∃ pieces closing, cs = pieces.flatMap Piece.text ++ closing ∧ Tiled closing before pieces ∧
      Lugha.scanFrom .empty (Position.origin.past before) cs =
        (pieces.map Piece.token ++ [endToken (.following (before ++ cs))], .empty) := by
  induction h generalizing before with
  | @done cs h =>
    refine ⟨[], cs, rfl, .done h, ?_⟩
    rw [scanFrom_of_end (skipGap_closing .empty h _), ← Position.past_append,
      Position.past_origin]
    rfl
  | @token k ks gap w rest hgap hw hends _ ih =>
    obtain ⟨pieces, closing, rfl, htiled, hscan⟩ := ih (before ++ (gap ++ w))
    refine ⟨⟨gap, w, k, .around (before ++ gap) w⟩ :: pieces, closing, ?_,
      .piece hgap hw hends rfl htiled, ?_⟩
    · simp [Piece.text]
    · have hspan := Span.upTo_past (before ++ gap) hw.ne_nil hw.getLast_ne_newline
      obtain ⟨c, cs, rfl, htoken⟩ := scanToken_written .empty hw hends
        ((Position.origin.past before).past gap)
      have hskip := skipGap_filler .empty hgap (Position.origin.past before)
        (c :: cs ++ (pieces.flatMap Piece.text ++ closing))
      rw [skipGap_written .empty hw hends] at hskip
      rw [scanFrom_of_token hskip rfl htoken]
      simp only [← Position.past_append] at hscan ⊢
      rw [List.append_assoc before gap (c :: cs), hscan, ← List.append_assoc before gap (c :: cs),
        hspan]
      simp

namespace Tiled

variable {before closing : List Char} {pieces : List Piece}

/-- What follows the last piece closes the text. -/
lemma closes (h : Tiled closing before pieces) : Closing closing := by
  induction h with
  | done h => exact h
  | piece _ _ _ _ _ ih => exact ih

/-- Filler stands before the words, and each word is a written form of its token. -/
lemma mem {x : Piece} (h : Tiled closing before pieces) (hx : x ∈ pieces) :
    Filler x.gap ∧ x.token.kind.Written x.word := by
  induction h with
  | done => cases hx
  | piece hgap hword _ _ _ ih =>
    rcases List.mem_cons.1 hx with rfl | hx
    · exact ⟨hgap, hword⟩
    · exact ih hx

/-- The span of a token is the place of its word. -/
lemma span_eq (h : Tiled closing before pieces) {xs ys : List Piece} {x : Piece}
    (hsplit : pieces = xs ++ x :: ys) :
    x.token.span = .around (before ++ (xs.flatMap Piece.text ++ x.gap)) x.word := by
  induction h generalizing xs with
  | done => simp at hsplit
  | @piece before y pieces _ _ _ hspan _ ih =>
    cases xs with
    | nil =>
      obtain ⟨rfl, rfl⟩ := List.cons.inj hsplit
      exact hspan
    | cons z xs =>
      obtain ⟨rfl, hrest⟩ := List.cons.inj hsplit
      simpa using ih hrest

/-- The spans of the tokens are in order. -/
lemma ordered (h : Tiled closing before pieces) :
    pieces.Pairwise fun x y => x.token.span.last.Precedes y.token.span.first := by
  induction h with
  | done => exact .nil
  | @piece before x pieces _ hword _ hspan h ih =>
    refine .cons (fun y hy => ?_) ih
    obtain ⟨xs, ys, hsplit⟩ := List.append_of_mem hy
    rw [hspan, h.span_eq hsplit]
    have hlater := Span.around_last_precedes (before ++ x.gap) (xs.flatMap Piece.text ++ y.gap)
      hword.ne_nil
    simpa only [Piece.text, Span.around, List.append_assoc] using hlater

/-- Two words that touch are a layout of their tokens. -/
lemma touching (h : Tiled closing before pieces) : pieces.IsChain fun x y =>
    y.gap = [] → LaidOut [x.token.kind, y.token.kind] (x.word ++ y.word) := by
  induction h with
  | done => exact .nil
  | @piece before x pieces _ hword hends _ h ih =>
    cases pieces with
    | nil => exact .singleton x
    | cons y pieces =>
      refine .cons_cons (fun hgap => ?_) ih
      have hbegins : y.word <+: (y :: pieces).flatMap Piece.text ++ closing := by
        simp [Piece.text, hgap]
      have hlast := (Spaced.last (h.mem List.mem_cons_self).2).laidOut
      simpa using LaidOut.token .nil hword (hends.of_prefix hbegins) hlast

end Tiled

/-! ### Texts -/

/-- A layout is read as its tokens. -/
lemma LaidOut.readsAs {ks : List TokenKind} {cs : List Char} (h : LaidOut ks cs) :
    ReadsAs cs ks := by
  rw [ReadsAs, scan, String.toList_ofList]
  exact h.scanFrom .origin

/-- Pieces that begin with the text tile it. -/
lemma Tiled.tiling {text : String} {pieces : List Piece} {closing : List Char}
    (h : Tiled closing [] pieces) (htext : text.toList = pieces.flatMap Piece.text ++ closing) :
    Tiling text pieces closing where
  text_eq := htext
  gaps x hx := (h.mem hx).1
  closes := h.closes
  spans _ _ _ hsplit := h.span_eq hsplit
  slices x hx := by
    obtain ⟨xs, ys, rfl⟩ := List.append_of_mem hx
    have hslice := Span.slice_around (xs.flatMap Piece.text ++ x.gap)
      (ys.flatMap Piece.text ++ closing) (h.mem hx).2.ne_nil
    rw [h.span_eq rfl, htext, List.nil_append]
    simpa [Piece.text] using hslice
  ordered := h.ordered
  alone x hx := (Spaced.last (h.mem hx).2).laidOut.readsAs
  touching := h.touching.imp fun _ _ hlaid hgap => (hlaid hgap).readsAs
  words x hx := (h.mem hx).2.ne_endOfFile

/-- The tokens of a text without faults tile it, and after them stands one mark of the end, just
past the last character. -/
theorem tiling_of_scan {text : String} (h : (scan text).2.hasErrors = false) :
    ∃ pieces closing, Tiling text pieces closing ∧
      (scan text).1 = pieces.map Piece.token ++ [endToken (.following text.toList)] := by
  have hempty : (scan text).2 = .empty :=
    scan_eq_empty (Nat.eq_zero_of_not_pos (of_decide_eq_false h))
  obtain ⟨ks, hlaid, -⟩ := laidOut_of_scanFrom .origin text.toList hempty
  obtain ⟨pieces, closing, htext, htiled, hscan⟩ := hlaid.tiled []
  exact ⟨pieces, closing, htiled.tiling htext, congrArg Prod.fst hscan⟩

/-- Words that touch, a text with a newline in it, characters of several bytes and a comment that
the end of the text closes. -/
theorem tiling_of_scan_mixed :
    let text := "fanya sauti='é\n→' ;\r\n/* ** */ x<=1.5//"
    (∃ pieces closing, Tiling text pieces closing ∧
        (scan text).1 = pieces.map Piece.token ++ [endToken (.following text.toList)]) ∧
      (scan text).1.map (fun t => String.ofList (t.span.slice text.toList)) =
        ["fanya", "sauti", "=", "'é\n→'", ";", "x", "<=", "1.5", ""] := by
  intro text
  exact ⟨tiling_of_scan (by decide +kernel), by decide +kernel⟩

end Lugha
