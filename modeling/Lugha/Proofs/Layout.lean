import Lugha.Text.Blank
import Lugha.Token.Scan
import Mathlib.Data.List.Basic
import Mathlib.Data.List.Induction
import Mathlib.Data.List.TakeWhile
import Mathlib.Tactic.Common

/-!
# How tokens are laid out in a text

A token is written in one of few ways: reserved words, signs and names as they are,
numbers with or without a fraction, texts between either quote with escapes.  Between
tokens stand blanks and comments.  `TokenKind.Written` and `Filler` say this of single
pieces, and `LaidOut` says of a text that it holds given tokens and nothing else.

A token that is followed at once by another piece of text has to end where it does.
`TokenKind.EndsBefore` says so: the text after it does not make a longer token or a
comment out of it.

Positions play no part here.  A layout stays one if its blanks are trimmed, and two layouts
with a newline between them are a layout of all their tokens.
-/

namespace Lugha

/-! ### Written forms of tokens -/

/-- The letters of escapes and the characters that they stand for. -/
def escapes : List (Char × Char) :=
  [('n', '\n'), ('t', '\t'), ('r', '\r'), ('\\', '\\'), ('"', '"'), ('\'', '\'')]

/-- The ways to write characters between quotes: a character stands for itself, unless it is
a backslash or the quote, and an escape stands for its character. -/
inductive Escaped (quote : Char) : List Char → List Char → Prop
  | nil : Escaped quote [] []
  | plain {c : Char} {cs ws : List Char} (hc : c ≠ '\\') (hquote : c ≠ quote)
      (h : Escaped quote cs ws) : Escaped quote (c :: cs) (c :: ws)
  | escape {e c : Char} {cs ws : List Char} (he : (e, c) ∈ escapes)
      (h : Escaped quote cs ws) : Escaped quote (c :: cs) ('\\' :: e :: ws)

/-- The ways to write a token. -/
inductive TokenKind.Written : TokenKind → List Char → Prop
  | name {c : Char} {cs : List Char} (hstart : isNameStart c) (hparts : ∀ d ∈ cs, isNamePart d)
      (hfree : ∀ k : Keyword, k.text.toList ≠ c :: cs) :
      Written (.name (String.ofList (c :: cs))) (c :: cs)
  | keyword (k : Keyword) : Written (.keyword k) k.text.toList
  | symbol (s : Symbol) : Written (.symbol s) s.text.toList
  | whole {c : Char} {cs : List Char} (hc : isDigit c) (hcs : ∀ d ∈ cs, isDigit d) :
      Written (.number (decimalValue (c :: cs) [])) (c :: cs)
  | fraction {c d : Char} {cs ds : List Char} (hc : isDigit c) (hcs : ∀ d ∈ cs, isDigit d)
      (hd : isDigit d) (hds : ∀ d ∈ ds, isDigit d) :
      Written (.number (decimalValue (c :: cs) (d :: ds))) (c :: (cs ++ '.' :: d :: ds))
  | text {quote : Char} {cs ws : List Char} (hquote : quote = '"' ∨ quote = '\'')
      (h : Escaped quote cs ws) :
      Written (.text (String.ofList cs)) (quote :: (ws ++ [quote]))

/-- Whether a sign and the character after it are the beginning of a longer sign or of a
comment. -/
def Symbol.joins : Symbol → Char → Bool
  | .assign, c | .bang, c | .less, c | .greater, c => c == '='
  | .slash, c => c == '/' || c == '*'
  | _, _ => false

/-- A written token ends before the given text: nothing of that text continues it. -/
def TokenKind.EndsBefore (w rest : List Char) : TokenKind → Prop
  | .name _ | .keyword _ => ∀ c ∈ rest.head?, isNamePart c = false
  | .number _ =>
    (∀ c ∈ rest.head?, isDigit c = false) ∧
      ('.' ∉ w → ∀ d, ['.', d] <+: rest → isDigit d = false)
  | .symbol s => ∀ c ∈ rest.head?, s.joins c = false
  | .text _ | .endOfFile => True

/-! ### What stands between tokens -/

/-- Blanks and closed comments. -/
inductive Filler : List Char → Prop
  | nil : Filler []
  | blank {c : Char} {cs : List Char} (hc : isBlank c) (h : Filler cs) : Filler (c :: cs)
  | line {note cs : List Char} (hnote : '\n' ∉ note) (h : Filler cs) :
      Filler ('/' :: '/' :: (note ++ '\n' :: cs))
  | block {note cs : List Char} (hnote : ¬ ['*', '/'] <:+: note) (h : Filler cs) :
      Filler ('/' :: '*' :: (note ++ '*' :: '/' :: cs))

/-- Blanks and comments after the last token. The end of the text may end a line comment. -/
inductive Closing : List Char → Prop
  | filler {cs : List Char} (h : Filler cs) : Closing cs
  | line {cs note : List Char} (h : Filler cs) (hnote : '\n' ∉ note) :
      Closing (cs ++ '/' :: '/' :: note)

/-- A text that holds the given tokens, with blanks and comments between them. -/
inductive LaidOut : List TokenKind → List Char → Prop
  | done {cs : List Char} (h : Closing cs) : LaidOut [] cs
  | token {k : TokenKind} {ks : List TokenKind} {gap w rest : List Char} (hgap : Filler gap)
      (hw : k.Written w) (hends : k.EndsBefore w rest) (hrest : LaidOut ks rest) :
      LaidOut (k :: ks) (gap ++ (w ++ rest))

/-! ### Filler -/

/-- Filler may follow filler. -/
lemma Filler.append {gap gap' : List Char} (h : Filler gap) (h' : Filler gap') :
    Filler (gap ++ gap') := by
  induction h with
  | nil => exact h'
  | blank hc _ ih => exact .blank hc ih
  | line hnote _ ih => simpa using Filler.line hnote ih
  | block hnote _ ih => simpa using Filler.block hnote ih

/-- A newline after the last comment makes it filler. -/
lemma Closing.newline {cs : List Char} (h : Closing cs) : Filler (cs ++ ['\n']) := by
  cases h with
  | filler h => exact h.append (.blank rfl .nil)
  | line h hnote => simpa using h.append (.line hnote .nil)

/-- Filler may stand before what closes a text. -/
lemma Filler.closing {gap cs : List Char} (h : Filler gap) (h' : Closing cs) :
    Closing (gap ++ cs) := by
  cases h' with
  | filler h' => exact .filler (h.append h')
  | line h' hnote => simpa using Closing.line (h.append h') hnote

/-- Filler may stand before a layout. -/
lemma Filler.laidOut {ks : List TokenKind} {gap cs : List Char} (h : Filler gap)
    (h' : LaidOut ks cs) : LaidOut ks (gap ++ cs) := by
  cases h' with
  | done h' => exact .done (h.closing h')
  | token hgap hw hends hrest => simpa using LaidOut.token (h.append hgap) hw hends hrest

/-! ### Classes of characters -/

/-- Blanks are white. -/
lemma isWhite_of_isBlank {c : Char} (h : isBlank c) : Text.isWhite c := by
  simp only [isBlank, Bool.or_eq_true, beq_iff_eq] at h
  rcases h with ((rfl | rfl) | rfl) | rfl <;> decide

/-- The characters of names are not white. -/
lemma not_isWhite_of_isNamePart {c : Char} (h : isNamePart c) : Text.isWhite c = false := by
  have hletters : 48 ≤ c.toNat ∧ c.toNat ≤ 122 := by
    simp only [isNamePart, isNameStart, isDigit, Bool.or_eq_true, Bool.and_eq_true,
      decide_eq_true_eq, beq_iff_eq, Char.le_def, UInt32.le_iff_toNat_le] at h
    rcases h with ((h | h) | rfl) | h
    · exact ⟨Nat.le_trans (by decide) h.1, h.2⟩
    · exact ⟨Nat.le_trans (by decide) h.1, Nat.le_trans h.2 (by decide)⟩
    · decide
    · exact ⟨h.1, Nat.le_trans h.2 (by decide)⟩
  simp only [Text.isWhite, Bool.or_eq_false_iff, Bool.and_eq_false_iff, decide_eq_false_iff_not,
    beq_eq_false_iff_ne]
  omega

/-- Digits are characters of names. -/
lemma isNamePart_of_isDigit {c : Char} (h : isDigit c) : isNamePart c := by
  simp [isNamePart, h]

/-- The first characters of names are characters of names. -/
lemma isNamePart_of_isNameStart {c : Char} (h : isNameStart c) : isNamePart c := by
  simp [isNamePart, h]

/-! ### Trimming -/

/-- The last character of a written token is not white. -/
lemma TokenKind.Written.getLast_not_isWhite {k : TokenKind} {w : List Char} (h : k.Written w) :
    ∀ c ∈ w.getLast?, Text.isWhite c = false := by
  intro x hx
  cases h with
  | @name c cs hstart hparts _ =>
    refine not_isWhite_of_isNamePart ?_
    rcases List.mem_cons.1 (List.mem_of_getLast? hx) with rfl | hmem
    · exact isNamePart_of_isNameStart hstart
    · exact hparts x hmem
  | keyword k => cases k <;> cases hx <;> decide
  | symbol s => cases s <;> cases hx <;> decide
  | @whole c cs hc hcs =>
    refine not_isWhite_of_isNamePart (isNamePart_of_isDigit ?_)
    rcases List.mem_cons.1 (List.mem_of_getLast? hx) with rfl | hmem
    · exact hc
    · exact hcs x hmem
  | @fraction c d cs ds hc hcs hd hds =>
    have hlast : (c :: (cs ++ '.' :: d :: ds)).getLast? = (d :: ds).getLast? := by
      rw [← List.cons_append, List.getLast?_append, List.getLast?_cons_cons]
      simp [List.getLast?_cons]
    rw [hlast] at hx
    refine not_isWhite_of_isNamePart (isNamePart_of_isDigit ?_)
    rcases List.mem_cons.1 (List.mem_of_getLast? hx) with rfl | hmem
    · exact hd
    · exact hds x hmem
  | @text quote cs ws hquote _ =>
    rw [← List.cons_append, List.getLast?_concat] at hx
    cases hx
    rcases hquote with rfl | rfl <;> decide

/-- A written token begins with a character that is not white. -/
lemma TokenKind.Written.head_not_isWhite {k : TokenKind} {w : List Char} (h : k.Written w) :
    ∃ c cs, w = c :: cs ∧ Text.isWhite c = false := by
  cases h with
  | name hstart =>
    exact ⟨_, _, rfl, not_isWhite_of_isNamePart (isNamePart_of_isNameStart hstart)⟩
  | keyword k => cases k <;> exact ⟨_, _, rfl, by decide⟩
  | symbol s => cases s <;> exact ⟨_, _, rfl, by decide⟩
  | whole hc | fraction hc =>
    exact ⟨_, _, rfl, not_isWhite_of_isNamePart (isNamePart_of_isDigit hc)⟩
  | text hquote => rcases hquote with rfl | rfl <;> exact ⟨_, _, rfl, by decide⟩

/-- A token ends before the beginning of a text before which it ends. -/
lemma TokenKind.EndsBefore.of_prefix {k : TokenKind} {w rest rest' : List Char}
    (h : k.EndsBefore w rest) (hrest : rest' <+: rest) : k.EndsBefore w rest' := by
  obtain ⟨more, rfl⟩ := hrest
  have hhead : ∀ c ∈ rest'.head?, c ∈ (rest' ++ more).head? := by
    intro c hc
    cases rest' with
    | nil => cases hc
    | cons d rest' => exact hc
  cases k with
  | name | keyword => exact fun c hc => h c (hhead c hc)
  | symbol => exact fun c hc => h c (hhead c hc)
  | number =>
    exact ⟨fun c hc => h.1 c (hhead c hc),
      fun hw d hd => h.2 hw d (hd.trans (List.prefix_append rest' more))⟩
  | text | endOfFile => trivial

/-- Without the white space before it, filler before a text is still filler. -/
lemma Filler.dropWhile_append {gap rest : List Char} (h : Filler gap)
    (hrest : ∀ c ∈ rest.head?, Text.isWhite c = false) :
    ∃ gap', Filler gap' ∧ (gap ++ rest).dropWhile Text.isWhite = gap' ++ rest := by
  induction h with
  | nil =>
    refine ⟨[], .nil, ?_⟩
    cases rest with
    | nil => rfl
    | cons c rest => simp [hrest c rfl]
  | blank hc _ ih =>
    obtain ⟨gap', hgap', heq⟩ := ih
    exact ⟨gap', hgap', by simpa [isWhite_of_isBlank hc] using heq⟩
  | line hnote h => exact ⟨_, .line hnote h, rfl⟩
  | block hnote h => exact ⟨_, .block hnote h, rfl⟩

/-- A layout without the white space before it is a layout of the same tokens. -/
lemma LaidOut.dropWhile {ks : List TokenKind} {cs : List Char} (h : LaidOut ks cs) :
    LaidOut ks (cs.dropWhile Text.isWhite) := by
  cases h with
  | done h =>
    cases h with
    | filler h =>
      have hnil : ∀ c ∈ ([] : List Char).head?, Text.isWhite c = false := by simp
      obtain ⟨gap, hgap, heq⟩ := h.dropWhile_append hnil
      simp only [List.append_nil] at heq
      exact heq ▸ .done (.filler hgap)
    | @line _ note h hnote =>
      have hslash : ∀ c ∈ ('/' :: '/' :: note).head?, Text.isWhite c = false := by
        rintro c ⟨⟩
        rfl
      obtain ⟨gap, hgap, heq⟩ := h.dropWhile_append hslash
      exact heq ▸ .done (.line hgap hnote)
  | @token _ _ _ _ rest hgap hw hends hrest =>
    obtain ⟨c, cs, rfl, hc⟩ := hw.head_not_isWhite
    have hhead : ∀ d ∈ (c :: cs ++ rest).head?, Text.isWhite d = false := by
      rintro d ⟨⟩
      exact hc
    obtain ⟨gap, hgap, heq⟩ := hgap.dropWhile_append hhead
    exact heq ▸ .token hgap hw hends hrest

/-- The last character of two joined texts is the last of the second one, if it has any. -/
lemma append_eq_concat {xs ys cs : List Char} {c : Char} (h : xs ++ ys = cs ++ [c]) :
    ys = [] ∧ xs = cs ++ [c] ∨ ∃ init, ys = init ++ [c] ∧ cs = xs ++ init := by
  rcases ys.eq_nil_or_concat' with rfl | ⟨init, d, rfl⟩
  · exact .inl ⟨rfl, by simpa using h⟩
  · rw [← List.append_assoc, List.append_singleton_inj] at h
    obtain ⟨rfl, rfl⟩ := h
    exact .inr ⟨init, rfl, rfl⟩

/-- Filler without the white space at its end closes a text: a line comment may have lost its
newline. -/
lemma Filler.closing_of_concat {gap cs : List Char} {c : Char} (h : Filler gap)
    (hc : Text.isWhite c) (heq : gap = cs ++ [c]) : Closing cs := by
  induction h generalizing cs with
  | nil => simp at heq
  | @blank d gap hd _ ih =>
    have hsplit : [d] ++ gap = cs ++ [c] := heq
    rcases append_eq_concat hsplit with ⟨-, hlast⟩ | ⟨init, hinit, rfl⟩
    · have hnil : [] ++ [d] = cs ++ [c] := hlast
      obtain ⟨rfl, -⟩ := List.append_singleton_inj.1 hnil
      exact .filler .nil
    · exact (Filler.blank hd .nil).closing (ih hinit)
  | @line note gap hnote _ ih =>
    have hsplit : ('/' :: '/' :: (note ++ ['\n'])) ++ gap = cs ++ [c] := by simpa using heq
    rcases append_eq_concat hsplit with ⟨-, hlast⟩ | ⟨init, hinit, rfl⟩
    · have hnewline : '/' :: '/' :: note ++ ['\n'] = cs ++ [c] := hlast
      obtain ⟨rfl, -⟩ := List.append_singleton_inj.1 hnewline
      exact .line .nil hnote
    · exact (Filler.line hnote .nil).closing (ih hinit)
  | @block note gap hnote _ ih =>
    have hsplit : ('/' :: '*' :: (note ++ ['*', '/'])) ++ gap = cs ++ [c] := by simpa using heq
    rcases append_eq_concat hsplit with ⟨-, hlast⟩ | ⟨init, hinit, rfl⟩
    · have hslash : '/' :: '*' :: (note ++ ['*']) ++ ['/'] = cs ++ [c] := by simpa using hlast
      obtain ⟨-, rfl⟩ := List.append_singleton_inj.1 hslash
      cases hc
    · simpa using (Filler.block hnote .nil).closing (ih hinit)

/-- What closes a text still does without the white space at its end. -/
lemma Closing.of_concat {cs : List Char} {c : Char} (h : Closing (cs ++ [c]))
    (hc : Text.isWhite c) : Closing cs := by
  generalize heq : cs ++ [c] = all at h
  cases h with
  | filler h => exact h.closing_of_concat hc heq.symm
  | @line gap note h hnote =>
    have hsplit : (gap ++ ['/', '/']) ++ note = cs ++ [c] := by simpa using heq.symm
    rcases append_eq_concat hsplit with ⟨-, hlast⟩ | ⟨init, rfl, rfl⟩
    · have hslash : gap ++ ['/'] ++ ['/'] = cs ++ [c] := by simpa using hlast
      obtain ⟨-, rfl⟩ := List.append_singleton_inj.1 hslash
      cases hc
    · have hinit : '\n' ∉ init := fun hmem => hnote (List.mem_append_left _ hmem)
      simpa using Closing.line h hinit

/-- A layout without a white character at its end is a layout of the same tokens. -/
lemma LaidOut.of_concat {ks : List TokenKind} {all : List Char} (h : LaidOut ks all) {cs : List Char}
    {c : Char} (hc : Text.isWhite c) (heq : all = cs ++ [c]) : LaidOut ks cs := by
  induction h generalizing cs with
  | done h => exact .done (Closing.of_concat (heq ▸ h) hc)
  | @token k ks gap w rest hgap hw hends _ ih =>
    rw [← List.append_assoc] at heq
    rcases append_eq_concat heq with ⟨-, hlast⟩ | ⟨init, rfl, rfl⟩
    · -- the text would end with the token, but no token ends with a white character
      rcases append_eq_concat hlast with ⟨rfl, -⟩ | ⟨init, rfl, -⟩
      · obtain ⟨d, ds, hnil, -⟩ := hw.head_not_isWhite
        cases hnil
      · have hnot := hw.getLast_not_isWhite c (by simp)
        rw [hc] at hnot
        cases hnot
    · rw [List.append_assoc]
      exact .token hgap hw (hends.of_prefix (List.prefix_append init [c])) (ih rfl)

/-- A layout without the white space after it is a layout of the same tokens. -/
lemma LaidOut.of_append_white {ks : List TokenKind} {cs white : List Char}
    (h : LaidOut ks (cs ++ white)) (hwhite : ∀ c ∈ white, Text.isWhite c) : LaidOut ks cs := by
  induction white using List.reverseRecOn with
  | nil => simpa using h
  | append_singleton white c ih =>
    have hshorter : LaidOut ks (cs ++ white) :=
      h.of_concat (hwhite c (by simp)) (List.append_assoc cs white [c]).symm
    exact ih hshorter fun d hd => hwhite d (List.mem_append_left _ hd)

/-- A trimmed layout is a layout of the same tokens. -/
lemma LaidOut.trim {ks : List TokenKind} {s : String} (h : LaidOut ks s.toList) :
    LaidOut ks (Text.trim s).toList := by
  unfold Text.trim
  rw [String.toList_ofList]
  generalize hcs : s.toList.dropWhile Text.isWhite = cs
  have hlaid : LaidOut ks cs := hcs ▸ h.dropWhile
  have hsplit : (cs.reverse.dropWhile Text.isWhite).reverse ++
      (cs.reverse.takeWhile Text.isWhite).reverse = cs := by
    rw [← List.reverse_append, List.takeWhile_append_dropWhile, List.reverse_reverse]
  rw [← hsplit] at hlaid
  exact hlaid.of_append_white fun c hc => List.mem_takeWhile_imp (List.mem_reverse.1 hc)

/-! ### Layouts one after the other -/

/-- A token that ends before a text ends there too if a blank follows the text. -/
lemma TokenKind.EndsBefore.blank {k : TokenKind} {w rest : List Char} {b : Char}
    (h : k.EndsBefore w rest) (hb : isBlank b) (more : List Char) :
    k.EndsBefore w (rest ++ b :: more) := by
  have hblanks : ((b = ' ' ∨ b = '\t') ∨ b = '\r') ∨ b = '\n' := by simpa [isBlank] using hb
  have hname : isNamePart b = false := by
    rcases hblanks with ((rfl | rfl) | rfl) | rfl <;> decide
  have hdigit : isDigit b = false := by
    rcases hblanks with ((rfl | rfl) | rfl) | rfl <;> decide
  have hsign : ∀ s : Symbol, s.joins b = false := by
    rcases hblanks with ((rfl | rfl) | rfl) | rfl <;> intro s <;> cases s <;> decide
  have hhead : ∀ c ∈ (rest ++ b :: more).head?, c ∈ rest.head? ∨ c = b := by
    intro c hc
    cases rest with
    | nil => exact .inr (Option.some.inj hc).symm
    | cons d rest => exact .inl hc
  cases k with
  | name | keyword =>
    intro c hc
    rcases hhead c hc with hc | rfl
    · exact h c hc
    · exact hname
  | symbol s =>
    intro c hc
    rcases hhead c hc with hc | rfl
    · exact h c hc
    · exact hsign s
  | number =>
    refine ⟨fun c hc => ?_, fun hw d hd => ?_⟩
    · rcases hhead c hc with hc | rfl
      · exact h.1 c hc
      · exact hdigit
    · -- a point and a digit after it would both have to stand before the blank
      match rest, hd with
      | [], hd =>
        obtain rfl : '.' = b := by simpa using (List.cons_prefix_cons.1 hd).1
        cases hb
      | ['.'], hd =>
        obtain rfl : d = b := by simpa using hd
        exact hdigit
      | c :: d' :: rest, hd =>
        refine h.2 hw d ?_
        simpa using hd
  | text | endOfFile => trivial

/-- Two layouts with a newline between them are a layout of the tokens of both. -/
lemma LaidOut.append {ks ls : List TokenKind} {cs ds : List Char} (h : LaidOut ks cs)
    (h' : LaidOut ls ds) : LaidOut (ks ++ ls) (cs ++ '\n' :: ds) := by
  induction h with
  | done h => simpa using h.newline.laidOut h'
  | token hgap hw hends _ ih => simpa using LaidOut.token hgap hw (hends.blank rfl ds) ih

end Lugha
