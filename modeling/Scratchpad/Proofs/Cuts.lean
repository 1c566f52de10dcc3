import Scratchpad.Proofs.LongestMatch

/-! Where a text can be cut. A character that goes on with no lexeme begins one, and a blank belongs
to no lexeme but its own, so the texts on its two sides are cut into lexemes each by itself. And
wherever one lexeme ends, what is in front and what is behind are cut as they are in the whole
text. -/
namespace Scratchpad

/-! ## Behind the first character -/

/-- The characters that go on with a lexeme. -/
def continues (c : Char) : Bool := isWordChar c || c == '.' || c == '='

theorem inRanges_cons_of_le {first last n : Nat} (hfirst : first ≤ n) (hlast : n ≤ last)
    (ranges : List (Nat × Nat)) : inRanges ((first, last) :: ranges) n = true := by
  simp [inRanges, hfirst, hlast]

theorem isWordChar_of_isDigit {c : Char} (h : isDigit c = true) : isWordChar c = true := by
  have hcode : 0x30 ≤ c.toNat ∧ c.toNat ≤ 0x39 := by
    simpa [isDigit_eq_inRanges, inRanges] using h
  have hnumeral : inRanges numeralRanges c.toNat = true := inRanges_cons_of_le hcode.1 hcode.2 _
  rw [isWordChar, hnumeral, Bool.or_true, Bool.true_or]

theorem continues_of_isWordChar {c : Char} (h : isWordChar c = true) : continues c = true := by
  simp [continues, h]

theorem Spells.continues_of_mem_tail {text : List Char} {kind : Kind} (h : Spells text kind)
    {c : Char} (hc : c ∈ text.tail) : continues c = true := by
  have hdigits {text : List Char} (ht : IsDigits text) {c : Char} (hc : c ∈ text) :
      continues c = true := continues_of_isWordChar (isWordChar_of_isDigit (ht.digits c hc))
  cases h with
  | @symbol _ s hs =>
    have hsymbols : ∀ s ∈ Kind.symbols, (s.1.toList.tail.all continues) = true := by decide
    have hsymbol := hsymbols (s, kind) (Kind.mem_symbols_of_symbol? hs)
    exact List.all_eq_true.1 hsymbol c hc
  | blank | invalid => cases hc
  | whole hw => exact hdigits hw (List.mem_of_mem_tail hc)
  | fraction hw hp =>
    rcases List.mem_append.1 (List.mem_of_mem_tail hc) with hc | hc
    · exact hdigits hw hc
    · rcases List.mem_cons.1 hc with rfl | hc
      · decide
      · exact hdigits hp hc
  | keyword hk =>
    obtain ⟨d, ds, htext, -, hds⟩ := word_of_keyword? hk
    rw [htext] at hc
    exact continues_of_isWordChar (hds c hc)
  | name _ hcs => exact continues_of_isWordChar (hcs c hc)

/-! ## Blanks -/

theorem isBlank_of_isWordChar {c : Char} (h : isWordChar c = true) : isBlank c = false := by
  simp only [isWordChar, Bool.or_eq_true, beq_iff_eq] at h
  rcases h with (hl | hn) | rfl
  · exact isBlank_of_isLetter hl
  · exact inRanges_eq_false_of_disjoint (by decide +kernel) hn
  · decide

theorem isBlank_of_continues {c : Char} (h : continues c = true) : isBlank c = false := by
  simp only [continues, Bool.or_eq_true, beq_iff_eq] at h
  rcases h with (hword | rfl) | rfl
  · exact isBlank_of_isWordChar hword
  · decide
  · decide

theorem Spells.isBlank_of_mem_tail {text : List Char} {kind : Kind} (h : Spells text kind)
    {c : Char} (hc : c ∈ text.tail) : isBlank c = false :=
  isBlank_of_continues (h.continues_of_mem_tail hc)

theorem extent_of_isBlank {c : Char} (hc : isBlank c = true) (cs : List Char) :
    extent c cs = [] := by
  have hless : c ≠ '<' := by rintro rfl; revert hc; decide
  have hgreater : c ≠ '>' := by rintro rfl; revert hc; decide
  have hdigit : ¬ isDigit c = true := fun h => by simp [isBlank_of_isDigit h] at hc
  have hletter : ¬ isLetter c = true := fun h => by simp [isBlank_of_isLetter h] at hc
  simp [extent, hless, hgreater, hdigit, hletter]

/-! ## Extents in a shorter text -/

/-- A lexeme that a text reaches all of is the same in a longer text that it begins. -/
theorem extent_eq_of_isPrefix {c : Char} {cs longer : List Char} (hcs : cs <+: longer)
    (h : extent c longer <+: cs) : extent c cs = extent c longer := by
  have hshort : c :: extent c cs <+: c :: longer :=
    List.cons_prefix_cons.2 ⟨rfl, (extent_isPrefix c cs).trans hcs⟩
  have hlong : c :: extent c longer <+: c :: cs := List.cons_prefix_cons.2 ⟨rfl, h⟩
  have hle := (List.cons_prefix_cons.1 ((spells_extent c cs).isPrefix hshort)).2
  have hge := (List.cons_prefix_cons.1 ((spells_extent c longer).isPrefix hlong)).2
  exact hle.eq_of_length_le hge.length_le

theorem isPrefix_of_notMem {l front back : List Char} {c : Char} (h : l <+: front ++ c :: back)
    (hc : c ∉ l) : l <+: front := by
  rcases List.prefix_or_prefix_of_prefix h (List.prefix_append front (c :: back)) with hl | ⟨m, rfl⟩
  · exact hl
  · cases m with
    | nil => simp
    | cons d m =>
      obtain ⟨rfl, -⟩ := List.cons_prefix_cons.1 ((List.prefix_append_right_inj front).1 h)
      simp at hc

/-! ## Cuts -/

/-- A text is cut in front of a character that goes on with no lexeme. -/
theorem lexemes_append_of_continues (a : List Char) {c : Char} (hc : continues c = false)
    (b : List Char) : lexemes (a ++ c :: b) = lexemes a ++ lexemes (c :: b) := by
  fun_induction lexemes a with
  | case1 => rfl
  | case2 d a ih =>
    -- The first lexeme stops in front of that character, so it is the first one of `a` as well.
    have hnotMem : c ∉ extent d (a ++ c :: b) := fun hmem => by
      simp [(spells_extent d (a ++ c :: b)).continues_of_mem_tail hmem] at hc
    have hinside := isPrefix_of_notMem (extent_isPrefix d (a ++ c :: b)) hnotMem
    have hextent := extent_eq_of_isPrefix (List.prefix_append a (c :: b)) hinside
    have hlength := (extent_isPrefix d a).length_le
    rw [List.cons_append, lexemes_cons, ← hextent, List.drop_append_of_le_length hlength, ih]
    rfl

theorem lexemes_append_of_isBlank (a : List Char) {c : Char} (hc : isBlank c = true)
    (b : List Char) : lexemes (a ++ c :: b) = lexemes a ++ [c] :: lexemes b := by
  have hcut : continues c = false := by
    rw [← Bool.not_eq_true]
    intro h
    simp [isBlank_of_continues h] at hc
  rw [lexemes_append_of_continues a hcut b, lexemes_cons_of_extent (extent_of_isBlank hc b)]

/-- The end of a lexeme cuts a text. -/
theorem lexemes_flatten {cs : List Char} {front back : List (List Char)}
    (h : lexemes cs = front ++ back) :
    lexemes front.flatten = front ∧ lexemes back.flatten = back := by
  induction front generalizing cs with
  | nil =>
    rw [List.nil_append] at h
    rw [← h, flatten_lexemes]
    exact ⟨lexemes_nil, rfl⟩
  | cons text front ih =>
    cases cs with
    | nil => simp at h
    | cons c cs =>
      rw [lexemes_cons, List.cons_append] at h
      obtain ⟨rfl, hrest⟩ := List.cons.inj h
      obtain ⟨hfront, hback⟩ := ih hrest
      have hinside : extent c cs ++ front.flatten <+: cs := by
        refine ⟨back.flatten, ?_⟩
        rw [List.append_assoc, ← List.flatten_append, ← hrest, flatten_lexemes,
          List.prefix_iff_eq_append.1 (extent_isPrefix c cs)]
      have hextent := extent_eq_of_isPrefix hinside (List.prefix_append _ _)
      rw [List.flatten_cons, List.cons_append, lexemes_cons, hextent, List.drop_left, hfront]
      exact ⟨rfl, hback⟩

end Scratchpad
