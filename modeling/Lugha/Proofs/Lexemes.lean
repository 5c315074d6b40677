import Lugha.Proofs.Tiling

/-!
# How a text is cut, whatever is wrong with it

Reading cuts every text into lexemes, also a text with faults.  A lexeme is a gap and a word, and a
word is a token, a text between quotes or a character that begins no token.  After the last lexeme
comes a gap that ends the text, or reading stops there because too many faults were reported.

A text between quotes is a quotation: units one after the other, each of them a character, an
escape or a backslash before something that is no escape, and then the closing quote, unless the
text ends before it.  So its value and its faults can be told from its units.

The tokens and the faults of a text are those of its lexemes, each at its own place.  The places
are found by counting the text before.
-/

namespace Lugha

/-! ### All that was reported -/

namespace ErrorList

variable {ε : Type}

/-- The list to which the given errors were reported, one after the other. -/
def ofList (es : List ε) : ErrorList ε := ⟨es.take capacity, es.length⟩

/-- One more report. -/
lemma push_ofList (es : List ε) (e : ε) : (ofList es).push e = ofList (es ++ [e]) := by
  simp only [push, ofList, List.length_append, List.length_singleton, List.length_take,
    ErrorList.mk.injEq, and_true]
  split
  · next h =>
    rw [List.take_of_length_le (by omega), List.take_of_length_le (by simp; omega)]
  · next h => rw [List.take_append_of_le_length (by omega)]

end ErrorList

/-! ### Items at their places -/

/-- Items with the text that stands before each of them, where the first one follows the given
text. -/
def placed {α : Type} (text : α → List Char) (before : List Char) :
    List α → List (List Char × α)
  | [] => []
  | x :: xs => (before, x) :: placed text (before ++ text x) xs

section Placed

variable {α : Type} {text : α → List Char}

/-- The text before an item is what stood before the first one and the items before it. -/
lemma eq_append_of_mem_placed {before b : List Char} {x : α} {xs : List α}
    (h : (b, x) ∈ placed text before xs) :
    ∃ ys zs, xs = ys ++ x :: zs ∧ b = before ++ ys.flatMap text := by
  induction xs generalizing before with
  | nil => cases h
  | cons y xs ih =>
    rcases List.mem_cons.1 h with heq | h
    · obtain ⟨rfl, rfl⟩ := Prod.mk.inj heq
      exact ⟨[], xs, rfl, (List.append_nil _).symm⟩
    · obtain ⟨ys, zs, rfl, rfl⟩ := ih h
      exact ⟨y :: ys, zs, rfl, by simp⟩

end Placed

/-- The span of a piece of text that was read over, where the given text stands before it. -/
def Span.over (before piece : List Char) : Span :=
  .upTo (.following before) (.following (before ++ piece))

/-- Reading on leads to the place that is found by counting. -/
lemma Position.past_following (before cs : List Char) :
    (following before).past cs = following (before ++ cs) := by
  rw [← past_origin, ← past_append, past_origin]

/-! ### Quotations -/

/-- What stands between quotes is made of units. -/
inductive TextUnit where
  /-- a character that stands for itself -/
  | plain (c : Char)
  /-- a backslash and a letter that together stand for a character -/
  | escape (letter c : Char)
  /-- a backslash before a character with which it is no escape -/
  | invalid (c : Char)

namespace TextUnit

/-- How a unit is written. -/
def text : TextUnit → List Char
  | plain c => [c]
  | escape letter _ => ['\\', letter]
  | invalid c => ['\\', c]

/-- The character that a unit stands for. After an invalid backslash this is the whole character
that follows. -/
def value : TextUnit → Char
  | plain c | escape _ c | invalid c => c

/-- Whether a unit is what it says, between the given quotes. -/
def Proper (quote : Char) : TextUnit → Prop
  | plain c => c ≠ '\\' ∧ c ≠ quote
  | escape letter c => (letter, c) ∈ escapes
  | invalid c => ∀ d, (c, d) ∉ escapes

/-- The faults of a unit that stands after the given text. -/
def faults (before : List Char) : TextUnit → List Fault
  | plain _ | escape _ _ => []
  | invalid c => [⟨.invalidEscape c, .over before ['\\', c]⟩]

end TextUnit

/-- How a quotation ends. -/
inductive Ending where
  /-- with the closing quote -/
  | closed
  /-- with the text -/
  | cut
  /-- with the text, where a backslash stands last -/
  | backslash

/-- How an ending is written. -/
def Ending.text (quote : Char) : Ending → List Char
  | closed => [quote]
  | cut => []
  | backslash => ['\\']

/-- Whether a quotation ends with its quote. -/
def Ending.isClosed : Ending → Bool
  | closed => true
  | cut | backslash => false

/-- A text between quotes, as it is written. -/
structure Quotation where
  quote : Char
  units : List TextUnit
  ending : Ending

namespace Quotation

/-- What follows the opening quote. -/
def body (x : Quotation) : List Char :=
  x.units.flatMap TextUnit.text ++ x.ending.text x.quote

/-- A quotation, its quotes included. -/
def word (x : Quotation) : List Char := x.quote :: x.body

/-- What a quotation stands for. -/
def value (x : Quotation) : String := String.ofList (x.units.map TextUnit.value)

/-- A quotation that is what it says and is followed by the given text. -/
structure Proper (x : Quotation) (rest : List Char) : Prop where
  quote : x.quote = '"' ∨ x.quote = '\''
  units : ∀ u ∈ x.units, u.Proper x.quote
  /-- only the end of the text ends a quotation without its quote -/
  ending : x.ending.isClosed = false → rest = []

/-- The faults of units that follow the given text. -/
def unitFaults (before : List Char) (units : List TextUnit) : List Fault :=
  (placed TextUnit.text before units).flatMap fun y => y.2.faults y.1

/-- The fault of a quotation that is never closed. -/
def endFaults (before : List Char) (x : Quotation) : List Fault :=
  if x.ending.isClosed then [] else [⟨.unclosedText x.quote, .over before x.word⟩]

/-- The faults of a quotation that stands after the given text. -/
def faults (before : List Char) (x : Quotation) : List Fault :=
  unitFaults (before ++ [x.quote]) x.units ++ endFaults before x

end Quotation

/-! ### Lexemes -/

/-- What is read at once. -/
inductive Word where
  /-- a token that is no text -/
  | plain (kind : TokenKind) (word : List Char)
  /-- a text between quotes -/
  | quoted (x : Quotation)
  /-- a character that begins no token -/
  | stray (c : Char)

namespace Word

/-- How a word is written. -/
def text : Word → List Char
  | plain _ word => word
  | quoted x => x.word
  | stray c => [c]

/-- The token that a word is read as. -/
def kind? : Word → Option TokenKind
  | plain kind _ => some kind
  | quoted x => some (.text x.value)
  | stray _ => none

/-- The faults of a word that stands after the given text. -/
def faults (before : List Char) : Word → List Fault
  | plain _ _ => []
  | quoted x => x.faults before
  | stray c => [⟨strayCharacter c, .over before [c]⟩]

/-- A word that is what it says and is followed by the given text. -/
def Proper (rest : List Char) : Word → Prop
  | plain kind word => kind.Written word ∧ kind.EndsBefore word rest ∧ ∀ s, kind ≠ .text s
  | quoted x => x.Proper rest
  | stray c =>
    isBlank c = false ∧ ¬ (c = '"' ∨ c = '\'') ∧
      ∀ (k : TokenKind) (w : List Char), k.Written w → ¬ w <+: c :: rest

end Word

/-- A word and the gap before it. -/
structure Lexeme where
  gap : List Char
  word : Word

namespace Lexeme

/-- The text of a lexeme. -/
def text (x : Lexeme) : List Char := x.gap ++ x.word.text

/-- The token of a lexeme that stands after the given text. -/
def token? (before : List Char) (x : Lexeme) : Option Token :=
  x.word.kind?.map fun kind => ⟨kind, .over (before ++ x.gap) x.word.text⟩

/-- The faults of a lexeme that stands after the given text. -/
def faults (before : List Char) (x : Lexeme) : List Fault := x.word.faults (before ++ x.gap)

/-- The tokens of lexemes that follow the given text. -/
def tokens (before : List Char) (xs : List Lexeme) : List Token :=
  (placed text before xs).filterMap fun y => y.2.token? y.1

/-- The faults of lexemes that follow the given text. -/
def allFaults (before : List Char) (xs : List Lexeme) : List Fault :=
  (placed text before xs).flatMap fun y => y.2.faults y.1

end Lexeme

/-- The last gap, with its faults: what is left of the text after it has not been read. -/
inductive LastGap (before : List Char) : List Char → List Char → List Fault → Prop
  | stop {gap : List Char} (rest : List Char) (h : Filler gap) : LastGap before gap rest []
  | close {gap : List Char} (h : Closing gap) : LastGap before gap [] []
  | openComment {gap note : List Char} (h : Filler gap) (hnote : ¬ ['*', '/'] <:+: note) :
      LastGap before (gap ++ '/' :: '*' :: note) []
        [⟨.unclosedComment, .over (before ++ gap) ('/' :: '*' :: note)⟩]

/-- Lexemes that follow the given text, with the last gap after them, the text that is left and the
faults of the last gap. -/
inductive Cut (last rest : List Char) (left : List Fault) : List Char → List Lexeme → Prop
  | done {before : List Char} (h : LastGap before last rest left) : Cut last rest left before []
  | lexeme {before : List Char} {x : Lexeme} {xs : List Lexeme} (hgap : Filler x.gap)
      (hword : x.word.Proper (xs.flatMap Lexeme.text ++ (last ++ rest)))
      (h : Cut last rest left (before ++ x.text) xs) : Cut last rest left before (x :: xs)

/-- A text that is cut into lexemes, where other text stands before it and some faults were reported
there. -/
structure Dissection (before : List Char) (reported : Nat) (cs : List Char) where
  lexemes : List Lexeme
  /-- what stands after the last lexeme and belongs to no word -/
  last : List Char
  /-- the faults of the last gap -/
  left : List Fault
  /-- what is left of the text and was not read -/
  unread : List Char
  eq_append : cs = lexemes.flatMap Lexeme.text ++ (last ++ unread)
  cut : Cut last unread left before lexemes
  /-- reading stops early only after so many faults -/
  full : unread ≠ [] →
    ErrorList.capacity ≤ reported + (Lexeme.allFaults before lexemes ++ left).length

namespace Dissection

variable {before cs : List Char} {reported : Nat}

/-- The tokens of a text that was cut, with the mark at the end. -/
def tokens (d : Dissection before reported cs) : List Token :=
  Lexeme.tokens before d.lexemes ++
    [endToken (.following (before ++ (d.lexemes.flatMap Lexeme.text ++ d.last)))]

/-- The faults of a text that was cut, in the order of the text. -/
def faults (d : Dissection before reported cs) : List Fault :=
  Lexeme.allFaults before d.lexemes ++ d.left

end Dissection

/-- Every lexeme of a cut is what it says. -/
lemma Cut.proper {last rest before : List Char} {left : List Fault} {xs ys : List Lexeme}
    {x : Lexeme} (h : Cut last rest left before (xs ++ x :: ys)) :
    Filler x.gap ∧ x.word.Proper (ys.flatMap Lexeme.text ++ (last ++ rest)) := by
  induction xs generalizing before with
  | nil =>
    cases h with
    | lexeme hgap hword _ => exact ⟨hgap, hword⟩
  | cons y xs ih =>
    cases h with
    | lexeme _ _ h => exact ih h

/-- Every lexeme stands in the text at its place. -/
lemma Dissection.exists_rest {before cs b : List Char} {reported : Nat}
    (d : Dissection before reported cs) {x : Lexeme}
    (h : (b, x) ∈ placed Lexeme.text before d.lexemes) :
    ∃ rest, before ++ cs = b ++ x.gap ++ (x.word.text ++ rest) ∧ x.word.Proper rest := by
  obtain ⟨xs, ys, hxs, rfl⟩ := eq_append_of_mem_placed h
  have hcut := d.cut
  rw [hxs] at hcut
  refine ⟨_, ?_, hcut.proper.2⟩
  conv_lhs => rw [d.eq_append, hxs]
  simp [Lexeme.text]

/-! ### Gaps -/

/-- A text has no end of a comment in it, or it has a first one. -/
lemma exists_commentEnd (cs : List Char) :
    ¬ ['*', '/'] <:+: cs ∨
      ∃ note tail, ¬ ['*', '/'] <:+: note ∧ cs = note ++ '*' :: '/' :: tail := by
  induction cs with
  | nil => exact .inl (by simp)
  | cons c cs ih =>
    by_cases hfirst : ['*', '/'] <+: c :: cs
    · obtain ⟨tail, htail⟩ := hfirst
      exact .inr ⟨[], tail, by simp, htail.symm⟩
    · rcases ih with hnone | ⟨note, tail, hnote, rfl⟩
      · exact .inl fun h => (List.infix_cons_iff.1 h).elim hfirst hnone
      · refine .inr ⟨c :: note, tail, fun h => ?_, rfl⟩
        rcases List.infix_cons_iff.1 h with hcut | hlater
        · exact hfirst (hcut.trans (List.prefix_append (c :: note) _))
        · exact hnote hlater

/-- What may stand at a place where a token is looked for: a gap, and then a character that belongs
to none, the end of the text or a comment that is never closed. -/
inductive Gapped (cs : List Char) : Prop
  | word {gap rest : List Char} {c : Char} (hgap : Filler gap) (hcs : cs = gap ++ c :: rest)
      (hblank : isBlank c = false)
      (hslash : c = '/' → ∀ d ∈ rest.head?, Symbol.slash.joins d = false) : Gapped cs
  | closing (h : Closing cs) : Gapped cs
  | openComment {gap note : List Char} (hgap : Filler gap) (hnote : ¬ ['*', '/'] <:+: note)
      (hcs : cs = gap ++ '/' :: '*' :: note) : Gapped cs

/-- Filler before a gap belongs to it. -/
lemma Gapped.filler {gap cs : List Char} (h : Gapped cs) (hgap : Filler gap) :
    Gapped (gap ++ cs) := by
  cases h with
  | word hgap' hcs hblank hslash =>
    exact .word (hgap.append hgap') (by rw [hcs, List.append_assoc]) hblank hslash
  | closing h => exact .closing (hgap.closing h)
  | openComment hgap' hnote hcs =>
    exact .openComment (hgap.append hgap') hnote (by rw [hcs, List.append_assoc])

/-- Every text begins with a gap. -/
lemma gapped (cs : List Char) : Gapped cs := by
  induction hlength : cs.length using Nat.strong_induction_on generalizing cs with
  | _ n ih =>
    subst hlength
    cases cs with
    | nil => exact .closing (.filler .nil)
    | cons c rest =>
      by_cases hblank : isBlank c = true
      · exact (ih rest.length (Nat.lt_succ_self _) rest rfl).filler (.blank hblank .nil)
      by_cases hline : c = '/' ∧ rest.head? = some '/'
      · obtain ⟨rfl, hhead⟩ := hline
        obtain ⟨rest, rfl⟩ := List.head?_eq_some_iff.1 hhead
        by_cases hnewline : '\n' ∈ rest
        · obtain ⟨note, tail, rfl, hnote⟩ := List.eq_append_cons_of_mem hnewline
          have htail := (ih tail.length (by simp; omega) tail rfl).filler (.line hnote .nil)
          simpa using htail
        · exact .closing (.line .nil hnewline)
      by_cases hblock : c = '/' ∧ rest.head? = some '*'
      · obtain ⟨rfl, hhead⟩ := hblock
        obtain ⟨rest, rfl⟩ := List.head?_eq_some_iff.1 hhead
        rcases exists_commentEnd rest with hnone | ⟨note, tail, hnote, rfl⟩
        · exact .openComment .nil hnone rfl
        · have htail := (ih tail.length (by simp; omega) tail rfl).filler (.block hnote .nil)
          simpa using htail
      refine .word .nil rfl (Bool.eq_false_iff.2 hblank) fun hc d hd => ?_
      have hslash : d ≠ '/' := fun he => hline ⟨hc, he ▸ hd⟩
      have hstar : d ≠ '*' := fun he => hblock ⟨hc, he ▸ hd⟩
      simp [Symbol.joins, hslash, hstar]

/-- A comment that is never closed is skipped to the end of the text and reported. -/
lemma skipGap_openBlock (faults : ErrorList Fault) {note : List Char}
    (hnote : ¬ ['*', '/'] <:+: note) (opened p : Position) :
    skipGap faults (.blockComment opened) p note =
      (faults.push ⟨.unclosedComment, .upTo opened (p.past note)⟩, ⟨p.past note, []⟩) := by
  induction note generalizing p with
  | nil => simp [skipGap]
  | cons c note ih =>
    have hrest : ¬ ['*', '/'] <:+: note := fun h =>
      hnote (h.trans (List.suffix_cons c note).isInfix)
    rw [skipGap, ih hrest]
    · rfl
    · rintro more rfl rfl
      exact hnote ⟨[], more, rfl⟩

/-! ### Words -/

/-- What is no escape is not among them. -/
lemma notMem_escapes {e : Char} (h : escape? e = none) (c : Char) : (e, c) ∉ escapes := by
  intro hmem
  rw [escape?_of_mem hmem] at h
  cases h

/-- What may follow an opening quote: units, and then the end of the quotation. -/
inductive Quoted (quote : Char) (cs : List Char) : Prop
  | intro {units : List TextUnit} {ending : Ending} {rest : List Char}
      (hcs : cs = units.flatMap TextUnit.text ++ (ending.text quote ++ rest))
      (hunits : ∀ u ∈ units, u.Proper quote) (hending : ending.isClosed = false → rest = []) :
      Quoted quote cs

/-- The end of a quotation. -/
lemma Quoted.ends {quote : Char} (ending : Ending) {rest : List Char}
    (h : ending.isClosed = false → rest = []) : Quoted quote (ending.text quote ++ rest) :=
  @Quoted.intro quote _ [] ending rest rfl (List.forall_mem_nil _) h

/-- One unit before others. -/
lemma Quoted.unit {quote : Char} {cs : List Char} {u : TextUnit} (h : Quoted quote cs)
    (hu : u.Proper quote) : Quoted quote (u.text ++ cs) := by
  obtain ⟨hcs, hunits, hending⟩ := h
  refine .intro ?_ (List.forall_mem_cons.2 ⟨hu, hunits⟩) hending
  rw [hcs, List.flatMap_cons, List.append_assoc]

/-- Whatever follows an opening quote is made of units, up to where the quotation ends. -/
lemma quoted (quote : Char) (cs : List Char) : Quoted quote cs := by
  induction hlength : cs.length using Nat.strong_induction_on generalizing cs with
  | _ n ih =>
    subst hlength
    cases cs with
    | nil => exact .ends .cut fun _ => rfl
    | cons c rest =>
      by_cases hquote : c = quote
      · subst hquote
        exact .ends .closed fun h => by cases h
      have hrest := ih rest.length (Nat.lt_succ_self _) rest rfl
      by_cases hc : c = '\\'
      · subst hc
        cases rest with
        | nil => exact .ends .backslash fun _ => rfl
        | cons d rest =>
          have hrest := ih rest.length (Nat.lt_succ_of_lt (Nat.lt_succ_self _)) rest rfl
          cases hd : escape? d with
          | some e => exact hrest.unit (u := .escape d e) (mem_escapes hd)
          | none => exact hrest.unit (u := .invalid d) (notMem_escapes hd)
      · exact hrest.unit (u := .plain c) ⟨hc, hquote⟩

section Quotations

variable {quote : Char} {opened : Position} {all : List Fault} {read start tail : List Char}

/-- A unit is read as the character that it stands for, and its faults are reported. -/
lemma scanText_unit {u : TextUnit} (hu : u.Proper quote) :
    scanText quote opened (.ofList all) read (.following start) (u.text ++ tail) =
      scanText quote opened (.ofList (all ++ u.faults start)) (u.value :: read)
        (.following (start ++ u.text)) tail := by
  cases u with
  | plain c => simp [TextUnit.text, TextUnit.faults, TextUnit.value, scanText, hu.1, hu.2,
      ← Position.past_following]
  | escape letter c =>
    simp [TextUnit.text, TextUnit.faults, TextUnit.value, scanText, escape?_of_mem hu,
      ← Position.past_following]
  | invalid c =>
    have hnone : escape? c = none := by
      refine Option.eq_none_iff_forall_ne_some.2 fun d hd => hu d (mem_escapes hd)
    simp [TextUnit.text, TextUnit.faults, TextUnit.value, scanText, hnone, Span.over,
      ← Position.past_following, ErrorList.push_ofList]

/-- Units are read one after the other. -/
lemma scanText_units {units : List TextUnit} (h : ∀ u ∈ units, u.Proper quote) :
    scanText quote opened (.ofList all) read (.following start)
        (units.flatMap TextUnit.text ++ tail) =
      scanText quote opened (.ofList (all ++ Quotation.unitFaults start units))
        ((units.map TextUnit.value).reverse ++ read)
        (.following (start ++ units.flatMap TextUnit.text)) tail := by
  induction units generalizing all read start with
  | nil => simp [Quotation.unitFaults, placed]
  | cons u units ih =>
    obtain ⟨hu, hunits⟩ := List.forall_mem_cons.1 h
    rw [List.flatMap_cons, List.append_assoc, scanText_unit hu, ih hunits]
    simp [Quotation.unitFaults, placed]

end Quotations

/-- A quotation is read to its end. -/
lemma scanText_quotation {x : Quotation} {rest : List Char} (h : x.Proper rest) (before : List Char)
    (all : List Fault) :
    scanText x.quote (.following before) (.ofList all) [] (.following (before ++ [x.quote]))
        (x.body ++ rest) =
      ⟨some (.text x.value), .ofList (all ++ x.faults before),
        ⟨.following (before ++ x.word), rest⟩⟩ := by
  have hbackslash : x.quote ≠ '\\' := by
    rcases h.quote with hq | hq <;> rw [hq] <;> decide
  rw [Quotation.body, List.append_assoc, scanText_units h.units]
  have hending := h.ending
  rcases x with ⟨quote, units, ending⟩
  cases ending with
  | closed =>
    simp [Ending.text, Ending.isClosed, scanText, hbackslash, Quotation.faults, Quotation.endFaults,
      Quotation.value, Quotation.word, Quotation.body, ← Position.past_following,
      Position.past_append]
  | cut | backslash =>
    obtain rfl := hending rfl
    simp [Ending.text, Ending.isClosed, scanText, Quotation.faults, Quotation.endFaults,
      Quotation.value, Quotation.word, Quotation.body, ← Position.past_following,
      Position.past_append, Span.over, ErrorList.push_ofList]

/-- A quotation is read from its opening quote on. -/
lemma scanToken_quotation {x : Quotation} {rest : List Char} (h : x.Proper rest)
    (before : List Char) (all : List Fault) :
    scanToken (.ofList all) (.following before) x.quote (x.body ++ rest) =
      ⟨some (.text x.value), .ofList (all ++ x.faults before),
        ⟨.following (before ++ x.word), rest⟩⟩ := by
  have hstep : (Position.following before).step x.quote = .following (before ++ [x.quote]) :=
    Position.past_following before [x.quote]
  rw [scanToken, if_pos h.quote, hstep, scanText_quotation h]

/-- Where no sign is read, none begins. -/
lemma not_symbol_of_none {c : Char} {rest : List Char} (h : symbol? c rest = none) (s : Symbol) :
    ¬ s.text.toList <+: c :: rest := by
  unfold symbol? at h
  split at h <;> cases h
  rintro ⟨tail, htail⟩
  cases s <;> simp [Symbol.text] at htail <;> grind

/-- A character that begins no sign, no word, no number and no quotation begins no token. -/
lemma not_written_of_stray {c : Char} {rest : List Char} (hquote : ¬ (c = '"' ∨ c = '\''))
    (hdigit : ¬ isDigit c) (hstart : ¬ isNameStart c) (hsymbol : symbol? c rest = none)
    (k : TokenKind) (w : List Char) (hw : k.Written w) : ¬ w <+: c :: rest := by
  intro hbegins
  cases hw with
  | name hname => exact hstart ((List.cons_prefix_cons.1 hbegins).1 ▸ hname)
  | keyword k =>
    obtain ⟨d, ds, htext, hname, -⟩ := k.text_spec
    rw [htext] at hbegins
    exact hstart ((List.cons_prefix_cons.1 hbegins).1 ▸ hname)
  | symbol s => exact not_symbol_of_none hsymbol s hbegins
  | whole hc | fraction hc => exact hdigit ((List.cons_prefix_cons.1 hbegins).1 ▸ hc)
  | text hopened => exact hquote ((List.cons_prefix_cons.1 hbegins).1 ▸ hopened)

/-- What is read as a word, a number or a sign is no text. -/
lemma wordKind_ne_text (w : List Char) (s : String) : wordKind w ≠ .text s := by
  unfold wordKind
  split <;> rintro ⟨⟩

/-- A number is no text. -/
lemma scanNumber_ne_text (c : Char) (rest : List Char) (s : String) :
    (scanNumber c rest).1 ≠ .text s := by
  simp only [scanNumber]
  split <;> rintro ⟨⟩

/-- Wherever a token is looked for stands a word. -/
lemma exists_word {c : Char} {rest : List Char} (hblank : isBlank c = false)
    (hslash : c = '/' → ∀ d ∈ rest.head?, Symbol.slash.joins d = false) :
    ∃ (w : Word) (left : List Char), c :: rest = w.text ++ left ∧ w.Proper left := by
  by_cases hquote : c = '"' ∨ c = '\''
  · obtain ⟨hrest, hunits, hending⟩ := quoted c rest
    refine ⟨.quoted ⟨c, _, _⟩, _, ?_, hquote, hunits, hending⟩
    rw [hrest, Word.text, Quotation.word, Quotation.body, List.cons_append, List.append_assoc]
  by_cases hdigit : isDigit c
  · obtain ⟨hrest, hw, hends⟩ := written_of_scanNumber hdigit rest
    exact ⟨.plain _ _, _, hrest, hw, hends, scanNumber_ne_text c rest⟩
  by_cases hstart : isNameStart c
  · have hw := written_wordKind hstart (mem_takeWhile_of_class isNamePart rest)
    have hends := wordKind_endsBefore (c :: rest.takeWhile isNamePart)
      (head?_dropWhile_eq_false isNamePart rest)
    refine ⟨.plain _ _, _, ?_, hw, hends, wordKind_ne_text _⟩
    rw [Word.text, List.cons_append, List.takeWhile_append_dropWhile]
  cases hsymbol : symbol? c rest with
  | some found =>
    obtain ⟨hrest, hends⟩ := written_of_symbol? hsymbol hslash
    exact ⟨.plain _ _, _, hrest, .symbol found.1, hends, by rintro s ⟨⟩⟩
  | none =>
    exact ⟨.stray c, rest, rfl, hblank, hquote,
      not_written_of_stray hquote hdigit hstart hsymbol⟩

/-- No sign is read where no token begins. -/
lemma symbol?_eq_none {c : Char} {rest : List Char}
    (h : ∀ (k : TokenKind) (w : List Char), k.Written w → ¬ w <+: c :: rest) :
    symbol? c rest = none := by
  refine Option.eq_none_iff_forall_ne_some.2 fun found hfound => ?_
  have hslash : c ≠ '/' := by
    rintro rfl
    exact h _ _ (.symbol .slash) ⟨rest, rfl⟩
  have hrest := (written_of_symbol? hfound fun hc => absurd hc hslash).1
  exact h _ _ (.symbol found.1) ⟨found.2, hrest.symm⟩

/-- A word is read with its faults. -/
lemma Word.Proper.scanToken {w : Word} {left : List Char} (h : w.Proper left)
    (before : List Char) (all : List Fault) :
    ∃ c cs, w.text = c :: cs ∧ Lugha.scanToken (.ofList all) (.following before) c (cs ++ left) =
      ⟨w.kind?, .ofList (all ++ w.faults before), ⟨.following (before ++ w.text), left⟩⟩ := by
  cases w with
  | plain k w =>
    obtain ⟨hw, hends, -⟩ := h
    obtain ⟨c, cs, rfl, hscan⟩ := scanToken_written (.ofList all) hw hends (.following before)
    refine ⟨c, cs, rfl, ?_⟩
    rw [hscan, Position.past_following]
    simp [Word.kind?, Word.faults, Word.text]
  | quoted x => exact ⟨x.quote, x.body, rfl, scanToken_quotation h before all⟩
  | stray c =>
    obtain ⟨-, hquote, hnone⟩ := h
    have hdigit : ¬ isDigit c := fun hc =>
      hnone _ [c] (.whole hc (List.forall_mem_nil _)) ⟨left, rfl⟩
    have hstart : ¬ isNameStart c := fun hc =>
      hnone _ [c] (written_wordKind hc (List.forall_mem_nil _)) ⟨left, rfl⟩
    refine ⟨c, [], rfl, ?_⟩
    rw [Lugha.scanToken, if_neg hquote, if_neg hdigit, if_neg hstart, List.nil_append,
      symbol?_eq_none hnone]
    simp [Word.kind?, Word.faults, Word.text, Span.over, ErrorList.push_ofList,
      ← Position.past_following]

/-! ### Whole texts -/

section Reading

variable {before faults after : ErrorList Fault} {p q q' : Position} {cs rest rest' : List Char}
  {c : Char}

/-- Reading stops where too many faults were reported. -/
lemma scanFrom_of_full (h : skipGap before .blank p cs = (faults, ⟨q, c :: rest⟩))
    (hfull : faults.isFull = true) : scanFrom before p cs = ([endToken q], faults) := by
  rw [scanFrom]
  split <;> simp_all

/-- A word is read, with its token if it has one, and then those after it. -/
lemma scanFrom_of_word {kind? : Option TokenKind}
    (h : skipGap before .blank p cs = (faults, ⟨q, c :: rest⟩)) (hfull : faults.isFull = false)
    (hword : scanToken faults q c rest = ⟨kind?, after, ⟨q', rest'⟩⟩) :
    scanFrom before p cs =
      ((kind?.map fun kind => ⟨kind, .upTo q q'⟩).toList ++ (scanFrom after q' rest').1,
        (scanFrom after q' rest').2) := by
  rw [scanFrom]
  split <;> cases kind? <;> simp_all

end Reading

/-- The end of a dissection, where reading ends. -/
def Dissection.done {before cs last unread : List Char} {left : List Fault} {reported : Nat}
    (h : LastGap before last unread left) (hcs : cs = last ++ unread)
    (hfull : unread ≠ [] → ErrorList.capacity ≤ reported + left.length) :
    Dissection before reported cs where
  lexemes := []
  last := last
  left := left
  unread := unread
  eq_append := hcs
  cut := .done h
  full := hfull

/-- A lexeme before others. -/
def Dissection.cons {before cs left : List Char} {reported reported' : Nat} (x : Lexeme)
    (hgap : Filler x.gap) (hword : x.word.Proper left) (hcs : cs = x.text ++ left)
    (hreported : reported' = reported + (x.faults before).length)
    (d : Dissection (before ++ x.text) reported' left) : Dissection before reported cs where
  lexemes := x :: d.lexemes
  last := d.last
  left := d.left
  unread := d.unread
  eq_append := by
    rw [hcs, List.flatMap_cons, List.append_assoc, ← d.eq_append]
  cut := .lexeme hgap (d.eq_append ▸ hword) d.cut
  full h := by
    have hfull := d.full h
    simp only [Lexeme.allFaults, placed, List.flatMap_cons, List.length_append] at hfull ⊢
    omega

/-- Every text is cut into lexemes, and its tokens and faults are theirs. -/
lemma exists_dissection (cs before : List Char) (all : List Fault) :
    ∃ d : Dissection before all.length cs,
      scanFrom (.ofList all) (.following before) cs = (d.tokens, .ofList (all ++ d.faults)) := by
  induction hlength : cs.length using Nat.strong_induction_on generalizing cs before all with
  | _ n ih =>
    subst hlength
    cases gapped cs with
    | closing h =>
      refine ⟨.done (.close h) (List.append_nil _).symm fun h => absurd rfl h, ?_⟩
      rw [scanFrom_of_end (skipGap_closing _ h _), Position.past_following]
      simp [Dissection.tokens, Dissection.faults, Dissection.done, Lexeme.tokens,
        Lexeme.allFaults, placed]
    | @openComment gap note hgap hnote hcs =>
      subst hcs
      refine ⟨.done (.openComment hgap hnote) (List.append_nil _).symm fun h => absurd rfl h, ?_⟩
      have hskip := skipGap_filler (.ofList all) hgap (.following before) ('/' :: '*' :: note)
      rw [skipGap, skipGap_openBlock _ hnote, ErrorList.push_ofList] at hskip
      rw [scanFrom_of_end hskip]
      simp [Dissection.tokens, Dissection.faults, Dissection.done, Lexeme.tokens,
        Lexeme.allFaults, placed, ← Position.past_following, Position.past_append, Span.over]
    | @word gap rest c hgap hcs hblank hslash =>
      subst hcs
      have hskip := skipGap_filler (.ofList all) hgap (.following before) (c :: rest)
      rw [skipGap_stop _ hblank hslash, Position.past_following] at hskip
      by_cases hfull : (ErrorList.ofList all).isFull = true
      · refine ⟨.done (.stop (c :: rest) hgap) rfl fun _ => of_decide_eq_true hfull, ?_⟩
        rw [scanFrom_of_full hskip hfull]
        simp [Dissection.tokens, Dissection.faults, Dissection.done, Lexeme.tokens,
          Lexeme.allFaults, placed]
      · obtain ⟨w, left, hrest, hw⟩ := exists_word hblank hslash
        obtain ⟨c', ds, htext, hscan⟩ := hw.scanToken (before ++ gap) all
        rw [htext, List.cons_append] at hrest
        obtain ⟨rfl, rfl⟩ := List.cons.inj hrest
        rw [scanFrom_of_word hskip (Bool.eq_false_iff.2 hfull) hscan]
        have hshorter : left.length < (gap ++ c :: (ds ++ left)).length := by simp; omega
        obtain ⟨d, hd⟩ := ih left.length hshorter left (before ++ (⟨gap, w⟩ : Lexeme).text)
          (all ++ w.faults (before ++ gap)) rfl
        refine ⟨.cons ⟨gap, w⟩ hgap hw ?_ (List.length_append ..) d, ?_⟩
        · simp [Lexeme.text, htext]
        · have hplace : before ++ gap ++ w.text = before ++ (⟨gap, w⟩ : Lexeme).text :=
            List.append_assoc ..
          rw [hplace, hd]
          cases hkind : w.kind? <;>
            simp [Dissection.tokens, Dissection.faults, Dissection.cons, Lexeme.tokens,
              Lexeme.allFaults, placed, Lexeme.token?, Lexeme.faults, Span.over, Lexeme.text, hkind]

/-- Every text is cut into lexemes, from its beginning. -/
lemma exists_dissection_scan (text : String) :
    ∃ d : Dissection [] 0 text.toList, scan text = (d.tokens, .ofList d.faults) :=
  exists_dissection text.toList [] []

end Lugha
