import Scratchpad.Token.Lexer

/-! Words: where a name ends in a text, and what it stands for. A name that no letter, digit or
underscore goes on with is a lexeme of its own. -/
namespace Scratchpad

/-! ## Letters -/

theorem inRanges_eq_false_of_disjoint {ranges others : List (Nat × Nat)}
    (h : ∀ r ∈ ranges, ∀ s ∈ others, r.2 < s.1 ∨ s.2 < r.1) {n : Nat}
    (hn : inRanges ranges n = true) : inRanges others n = false := by
  rw [← Bool.not_eq_true]
  intro ho
  obtain ⟨r, hr, hlow, hhigh⟩ := exists_of_inRanges hn
  obtain ⟨s, hs, hlow', hhigh'⟩ := exists_of_inRanges ho
  rcases h r hr s hs with hrs | hsr <;> omega

theorem isDigit_eq_inRanges (c : Char) : isDigit c = inRanges [(0x30, 0x39)] c.toNat := by
  simp [isDigit, inRanges, Char.le_def, UInt32.le_iff_toNat_le]

theorem isBlank_of_isLetter {c : Char} (h : isLetter c = true) : isBlank c = false :=
  inRanges_eq_false_of_disjoint (by decide +kernel) h

theorem isDigit_of_isLetter {c : Char} (h : isLetter c = true) : isDigit c = false := by
  rw [isDigit_eq_inRanges]
  exact inRanges_eq_false_of_disjoint (by decide +kernel) h

theorem ne_of_isLetter {c d : Char} (h : isLetter c = true) (hd : isLetter d = false) : c ≠ d := by
  rintro rfl
  simp [h] at hd

/-! ## Names -/

/-- A text that is a name: a letter, the rest of a word behind it, and no keyword. -/
structure IsIdentifier (text : String) : Prop where
  word : ∃ c cs, text.toList = c :: cs ∧ isLetter c = true ∧ ∀ d ∈ cs, isWordChar d = true
  free : Kind.keywords.lookup text = none

theorem lookup_symbols_eq_none {p : Char → Bool}
    (hp : ∀ s ∈ Kind.symbols, s.1.toList.head?.any p = false) {text : String} {c : Char}
    {cs : List Char} (htext : text.toList = c :: cs) (hc : p c = true) :
    Kind.symbols.lookup text = none := by
  rw [List.lookup_eq_none_iff]
  intro s hs
  rw [bne_iff_ne]
  intro heq
  have hhead := hp s hs
  simp [← heq, htext, hc] at hhead

theorem lookup_symbols_of_isLetter {text : String} {c : Char} {cs : List Char}
    (htext : text.toList = c :: cs) (hc : isLetter c = true) : Kind.symbols.lookup text = none :=
  lookup_symbols_eq_none (p := isLetter) (by decide) htext hc

theorem IsIdentifier.ofLexeme {text : String} (h : IsIdentifier text) :
    Kind.ofLexeme text.toList = .identifier text := by
  obtain ⟨c, cs, htext, hc, -⟩ := h.word
  have hsymbol := lookup_symbols_of_isLetter htext hc
  have hof : String.ofList (c :: cs) = text := by rw [← htext, String.ofList_toList]
  simp [Kind.ofLexeme, htext, hof, hsymbol, isBlank_of_isLetter hc, isDigit_of_isLetter hc, hc,
    h.free]

theorem extent_of_isLetter {c : Char} (hc : isLetter c = true) (cs : List Char) :
    extent c cs = cs.takeWhile isWordChar := by
  have hless : c ≠ '<' := ne_of_isLetter hc (by decide)
  have hgreater : c ≠ '>' := ne_of_isLetter hc (by decide)
  simp [extent, hless, hgreater, isDigit_of_isLetter hc, hc]

theorem lexemes_word_append {c : Char} {cs : List Char} (hc : isLetter c = true)
    (hcs : ∀ d ∈ cs, isWordChar d = true) {rest : List Char}
    (hrest : ∀ d ∈ rest.head?, isWordChar d = false) :
    lexemes (c :: cs ++ rest) = (c :: cs) :: lexemes rest := by
  have hstop : rest.takeWhile isWordChar = [] := by
    cases rest with
    | nil => rfl
    | cons d rest => simp [hrest d rfl]
  have hextent : extent c (cs ++ rest) = cs := by
    rw [extent_of_isLetter hc, List.takeWhile_append_of_pos hcs, hstop, List.append_nil]
  rw [List.cons_append, lexemes_cons, hextent, List.drop_left]

theorem IsIdentifier.lexemes_append {text : String} (h : IsIdentifier text) {rest : List Char}
    (hrest : ∀ c ∈ rest.head?, isWordChar c = false) :
    lexemes (text.toList ++ rest) = text.toList :: lexemes rest := by
  obtain ⟨c, cs, htext, hc, hcs⟩ := h.word
  rw [htext, lexemes_word_append hc hcs hrest]

theorem lexemes_cons_of_extent {c : Char} {cs : List Char} (h : extent c cs = []) :
    lexemes (c :: cs) = [c] :: lexemes cs := by
  rw [lexemes_cons, h]
  rfl

end Scratchpad
