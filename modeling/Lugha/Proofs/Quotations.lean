import Lugha.Proofs.ByteReading

/-!
# Texts between quotes

A text between quotes is decoded character by character: the six escapes stand for their
characters, a backslash before anything else is left out, and every other character up to the first
quote that no backslash escapes stands for itself.  This holds whether the quotation is closed or
cut off by the end of the text.

The reader of bytes finds the same.  What it gathers for a quotation are the bytes of the decoded
text, so it is valid UTF-8 and nothing in it is replaced.
-/

namespace Lugha

/-- The value and the span of a token, if it is a text. -/
def Token.text? (t : Token) : Option (String × Span) :=
  match t.kind with
  | .text s => some (s, t.span)
  | _ => none

/-- The quotation of a lexeme with the text before it, if the lexeme is one. -/
def Lexeme.quotation? (before : List Char) (x : Lexeme) : Option (List Char × Quotation) :=
  match x.word with
  | .quoted q => some (before ++ x.gap, q)
  | _ => none

namespace Dissection

variable {before cs : List Char} {reported : Nat}

/-- The quotations of a text, each with the text before it. -/
def quotations (d : Dissection before reported cs) : List (List Char × Quotation) :=
  (placed Lexeme.text before d.lexemes).filterMap fun y => y.2.quotation? y.1

/-- A quotation stands in the text at its place. -/
lemma exists_rest_of_mem_quotations (d : Dissection before reported cs) {b : List Char}
    {x : Quotation} (h : (b, x) ∈ d.quotations) :
    ∃ rest, before ++ cs = b ++ (x.word ++ rest) ∧ x.Proper rest := by
  obtain ⟨⟨b', gap, w⟩, hplaced, hquotation⟩ := List.mem_filterMap.1 h
  obtain ⟨rest, htext, hw⟩ := d.exists_rest hplaced
  cases w with
  | quoted q =>
    obtain ⟨rfl, rfl⟩ := Prod.mk.inj (Option.some.inj hquotation)
    exact ⟨rest, htext, hw⟩
  | plain | stray => cases hquotation

/-- The tokens that are texts are the quotations, in their order. -/
lemma filterMap_text?_tokens (d : Dissection before reported cs) :
    d.tokens.filterMap Token.text? = d.quotations.map fun y => (y.2.value, .over y.1 y.2.word) := by
  have hend (p : Position) : [endToken p].filterMap Token.text? = [] := rfl
  rw [tokens, List.filterMap_append, hend, List.append_nil, Lexeme.tokens, quotations,
    List.filterMap_filterMap, List.map_filterMap]
  refine List.filterMap_congr ?_
  rintro ⟨b, gap, w⟩ hplaced
  obtain ⟨rest, -, hw⟩ := d.exists_rest hplaced
  cases w with
  | quoted q => rfl
  | stray c => rfl
  | plain kind word =>
    -- no other token is a text
    have htext := hw.2.2
    cases kind with
    | text s => exact absurd rfl (htext s)
    | number | name | keyword | symbol | endOfFile => rfl

end Dissection

/-- The reader of bytes gathers the bytes of what a quotation stands for, so none of them is
replaced, and it stops at the end of the quotation. -/
lemma Bytes.scanText_quotation {x : Quotation} {rest : List Char} (h : x.Proper rest)
    (before : List Char) (all : List Fault) :
    let g := scanText x.quote.toUInt8 (.following before) ((ErrorList.ofList all).map Fault.notice)
      [] (.following (before ++ [x.quote])) (Text.bytes (.ofList (x.body ++ rest)))
    g.buffer = Text.bytes x.value ∧ lossy g.buffer = x.value.toList ∧
      g.after.rest = Text.bytes (.ofList rest) := by
  have hquote : x.quote.toNat < 0x80 ∧ x.quote ≠ '\\' := by
    rcases h.quote with hq | hq <;> rw [hq] <;> decide
  obtain ⟨value, hkind, hscan⟩ := scanText_encode hquote.1 hquote.2 (.following before)
    (.ofList all) [] (.following (before ++ [x.quote])) (x.body ++ rest)
  rw [Lugha.scanText_quotation h] at hkind hscan
  have hvalue : x.value = String.ofList value := TokenKind.text.inj (Option.some.inj hkind)
  intro g
  have hg : g = _ := (congrArg (scanText _ _ _ [] _) (Text.bytes_ofList _)).trans hscan
  rw [hg, hvalue, Text.bytes_ofList, Text.bytes_ofList, String.toList_ofList]
  exact ⟨rfl, lossy_encode value, rfl⟩

/-- Texts between quotes are decoded character by character.

Whatever the text, the reader of bytes finds what the reader of characters finds, and the tokens
that are texts are the quotations of the text, one for each of them and in their order. The value of
such a token is made of what the units of the quotation stand for, and it is found in the bytes
without replacing any. -/
theorem scan_decodes (text : String) :
    Bytes.scan (Text.bytes text) = ((scan text).1, (scan text).2.map Fault.notice) ∧
      ∃ d : Dissection [] 0 text.toList,
        (scan text).1.filterMap Token.text? =
          d.quotations.map (fun y => (y.2.value, Span.over y.1 y.2.word)) ∧
        ∀ y ∈ d.quotations, ∃ rest,
          text.toList = y.1 ++ (y.2.word ++ rest) ∧ y.2.Proper rest ∧
          ∀ all : List Fault,
            let g := Bytes.scanText y.2.quote.toUInt8 (.following y.1)
              ((ErrorList.ofList all).map Fault.notice) [] (.following (y.1 ++ [y.2.quote]))
              (Text.bytes (.ofList (y.2.body ++ rest)))
            g.buffer = Text.bytes y.2.value ∧ Bytes.lossy g.buffer = y.2.value.toList ∧
              g.after.rest = Text.bytes (.ofList rest) := by
  obtain ⟨d, hscan⟩ := exists_dissection_scan text
  refine ⟨Bytes.scan_bytes text, d, ?_, fun y hy => ?_⟩
  · rw [hscan]
    exact d.filterMap_text?_tokens
  · obtain ⟨rest, htext, hproper⟩ := d.exists_rest_of_mem_quotations hy
    exact ⟨rest, htext, hproper, Bytes.scanText_quotation hproper y.1⟩

example :
    (scan "'a\\é\\n→\\").1.filterMap Token.text? = [("aé\n→", ⟨⟨1, 1⟩, ⟨1, 8⟩⟩)] ∧
      (Bytes.scan (Text.bytes "'a\\é\\n→\\")).1.filterMap Token.text? =
        [("aé\n→", ⟨⟨1, 1⟩, ⟨1, 8⟩⟩)] := by
  decide +kernel

end Lugha
