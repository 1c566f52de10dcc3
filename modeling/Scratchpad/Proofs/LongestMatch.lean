import Scratchpad.Proofs.Words

/-! Lexemes are longest matches. The texts that a lexeme may have are given by what they stand for:
symbols, words, numerals, single blanks, and single characters that are none of these. A text is cut
into lexemes such that each one is the longest of them at the front of what is left, in the one way
in which that can be done. -/
namespace Scratchpad

/-! ## The languages of lexemes -/

namespace Operator

def symbol? : Operator → Option String
  | plus => some "+" | minus => some "-" | times => some "*" | dividedBy => some "/"
  | percent => some "%" | equal => some "=" | less => some "<" | lessEqual => some "<="
  | greater => some ">" | greaterEqual => some ">="
  | mod | and | or => none

def word? : Operator → Option String
  | plus => some "plus" | minus => some "minus" | times => some "times"
  | dividedBy => some "over" | mod => some "mod" | equal => some "equals"
  | and => some "and" | or => some "or"
  | percent | less | lessEqual | greater | greaterEqual => none

end Operator

namespace Kind

def symbol? : Kind → Option String
  | operator op => op.symbol?
  | openParen => some "(" | closeParen => some ")" | dot => some "." | colon => some ":"
  | newline => some "\n"
  | _ => none

def keyword? : Kind → Option String
  | operator op => op.word?
  | boolean true => some "true"
  | boolean false => some "false"
  | _ => none

theorem mem_of_lookup {table : List (String × Kind)} {text : String} {kind : Kind}
    (h : table.lookup text = some kind) : (text, kind) ∈ table := by
  obtain ⟨front, back, rfl, -⟩ := List.lookup_eq_some_iff.1 h
  simp

theorem lookup_symbols_eq_some_iff {text : String} {kind : Kind} :
    symbols.lookup text = some kind ↔ kind.symbol? = some text := by
  constructor
  · intro h
    have hsymbols : ∀ s ∈ symbols, s.2.symbol? = some s.1 := by decide
    exact hsymbols (text, kind) (mem_of_lookup h)
  · intro h
    cases kind with
    | operator op => cases op <;> cases h <;> rfl
    | openParen | closeParen | dot | colon | newline => cases h; rfl
    | _ => cases h

theorem lookup_keywords_eq_some_iff {text : String} {kind : Kind} :
    keywords.lookup text = some kind ↔ kind.keyword? = some text := by
  constructor
  · intro h
    have hwords : ∀ w ∈ keywords, w.2.keyword? = some w.1 := by decide
    exact hwords (text, kind) (mem_of_lookup h)
  · intro h
    cases kind with
    | operator op => cases op <;> cases h <;> rfl
    | boolean value => cases value <;> cases h <;> rfl
    | _ => cases h

theorem mem_symbols_of_symbol? {kind : Kind} {text : String} (h : kind.symbol? = some text) :
    (text, kind) ∈ symbols :=
  mem_of_lookup (lookup_symbols_eq_some_iff.2 h)

theorem mem_keywords_of_keyword? {kind : Kind} {text : String} (h : kind.keyword? = some text) :
    (text, kind) ∈ keywords :=
  mem_of_lookup (lookup_keywords_eq_some_iff.2 h)

end Kind

structure IsDigits (text : List Char) : Prop where
  digits : ∀ d ∈ text, isDigit d = true
  nonempty : text ≠ []

/-- The texts of lexemes, and what they stand for. A word is a keyword or a name; a character that
begins nothing else is invalid. -/
inductive Spells : List Char → Kind → Prop where
  | symbol {kind : Kind} {text : String} : kind.symbol? = some text → Spells text.toList kind
  | blank {c : Char} : isBlank c = true → c ≠ '\n' → Spells [c] .blank
  | whole {text : List Char} :
    IsDigits text → Spells text (.number (.ofDecimal false (.ofNumeral text)))
  | fraction {whole part : List Char} :
    IsDigits whole → IsDigits part →
    Spells (whole ++ '.' :: part) (.number (.ofDecimal false (.ofNumeral (whole ++ '.' :: part))))
  | keyword {kind : Kind} {text : String} : kind.keyword? = some text → Spells text.toList kind
  | name {c : Char} {cs : List Char} :
    isLetter c = true → (∀ d ∈ cs, isWordChar d = true) →
    (∀ kind : Kind, kind.keyword? ≠ some (String.ofList (c :: cs))) →
    Spells (c :: cs) (.identifier (String.ofList (c :: cs)))
  | invalid {c : Char} :
    (∀ kind : Kind, kind.symbol? ≠ some (String.ofList [c])) → isBlank c = false →
    isDigit c = false → isLetter c = false → Spells [c] .invalid

/-- The longest text of a lexeme at the front of a source, and what it stands for. -/
structure Longest (source text : List Char) (kind : Kind) : Prop where
  spells : Spells text kind
  front : text <+: source
  longest : ∀ (other : List Char) (kind' : Kind),
    Spells other kind' → other <+: source → other.length ≤ text.length

/-- A source as longest lexemes, one after the other. -/
inductive Scans : List Char → List (List Char × Kind) → Prop where
  | nil : Scans [] []
  | cons {text rest : List Char} {kind : Kind} {more : List (List Char × Kind)} :
    Longest (text ++ rest) text kind → Scans rest more →
    Scans (text ++ rest) ((text, kind) :: more)

/-! ## What a lexeme stands for -/

theorem isBlank_of_isDigit {c : Char} (h : isDigit c = true) : isBlank c = false := by
  rw [isDigit_eq_inRanges] at h
  exact inRanges_eq_false_of_disjoint (by decide +kernel) h

namespace Kind

theorem ofLexeme_of_symbol? {text : List Char} {kind : Kind}
    (h : kind.symbol? = some (String.ofList text)) : ofLexeme text = kind := by
  simp only [ofLexeme, lookup_symbols_eq_some_iff.2 h]

theorem ofLexeme_cons {c : Char} {cs : List Char}
    (h : symbols.lookup (String.ofList (c :: cs)) = none) :
    ofLexeme (c :: cs) =
      if isBlank c then .blank
      else if isDigit c then .number (.ofDecimal false (.ofNumeral (c :: cs)))
      else if isLetter c then
        (keywords.lookup (String.ofList (c :: cs))).getD (identifier (String.ofList (c :: cs)))
      else .invalid := by
  simp only [ofLexeme, h]

theorem ofLexeme_of_isBlank {c : Char} (hc : isBlank c = true) (hn : c ≠ '\n') :
    ofLexeme [c] = .blank := by
  have hsymbol : symbols.lookup (String.ofList [c]) = none :=
    lookup_symbols_eq_none (p := fun c => isBlank c && c != '\n') (by decide)
      String.toList_ofList (by simp [hc, hn])
  rw [ofLexeme_cons hsymbol, if_pos hc]

theorem ofLexeme_of_isDigit {c : Char} (cs : List Char) (hc : isDigit c = true) :
    ofLexeme (c :: cs) = .number (.ofDecimal false (.ofNumeral (c :: cs))) := by
  have hsymbol : symbols.lookup (String.ofList (c :: cs)) = none :=
    lookup_symbols_eq_none (p := isDigit) (by decide) String.toList_ofList hc
  rw [ofLexeme_cons hsymbol, if_neg (by simp [isBlank_of_isDigit hc]), if_pos hc]

theorem ofLexeme_of_isLetter {c : Char} (cs : List Char) (hc : isLetter c = true) :
    ofLexeme (c :: cs) =
      (keywords.lookup (String.ofList (c :: cs))).getD (.identifier (String.ofList (c :: cs))) := by
  have hsymbol := lookup_symbols_of_isLetter (String.toList_ofList (l := c :: cs)) hc
  rw [ofLexeme_cons hsymbol, if_neg (by simp [isBlank_of_isLetter hc]),
    if_neg (by simp [isDigit_of_isLetter hc]), if_pos hc]

theorem ofLexeme_of_none {c : Char} (h : ∀ kind : Kind, kind.symbol? ≠ some (String.ofList [c]))
    (hb : isBlank c = false) (hd : isDigit c = false) (hl : isLetter c = false) :
    ofLexeme [c] = .invalid := by
  have hsymbol : symbols.lookup (String.ofList [c]) = none :=
    Option.eq_none_iff_forall_ne_some.2 fun kind hs => h kind (lookup_symbols_eq_some_iff.1 hs)
  simp [ofLexeme_cons hsymbol, hb, hd, hl]

end Kind

theorem word_of_keyword? {kind : Kind} {text : String} (h : kind.keyword? = some text) :
    ∃ c cs, text.toList = c :: cs ∧ isLetter c = true ∧ ∀ d ∈ cs, isWordChar d = true := by
  have hwords : ∀ w ∈ Kind.keywords, w.1.toList.head?.any isLetter = true ∧
      w.1.toList.tail.all isWordChar = true := by decide
  have hword := hwords (text, kind) (Kind.mem_keywords_of_keyword? h)
  cases ht : text.toList with
  | nil => simp [ht] at hword
  | cons c cs =>
    rw [ht] at hword
    exact ⟨c, cs, rfl, by simpa using hword.1, List.all_eq_true.1 hword.2⟩

theorem IsDigits.exists_cons {text : List Char} (h : IsDigits text) :
    ∃ d ds, text = d :: ds ∧ isDigit d = true ∧ ∀ c ∈ ds, isDigit c = true := by
  obtain ⟨d, ds, rfl⟩ := List.exists_cons_of_ne_nil h.nonempty
  exact ⟨d, ds, rfl, List.forall_mem_cons.1 h.digits⟩

/-- A text is spelled in one way at most. -/
theorem Spells.kind_eq {text : List Char} {kind : Kind} (h : Spells text kind) :
    kind = .ofLexeme text := by
  cases h with
  | symbol hs => exact (Kind.ofLexeme_of_symbol? (by rwa [String.ofList_toList])).symm
  | blank hb hn => exact (Kind.ofLexeme_of_isBlank hb hn).symm
  | whole hw =>
    obtain ⟨d, ds, rfl, hd, -⟩ := hw.exists_cons
    exact (Kind.ofLexeme_of_isDigit ds hd).symm
  | fraction hw hp =>
    obtain ⟨d, ds, rfl, hd, -⟩ := hw.exists_cons
    exact (Kind.ofLexeme_of_isDigit _ hd).symm
  | @keyword _ word hk =>
    obtain ⟨c, cs, htext, hc, -⟩ := word_of_keyword? hk
    have hof : String.ofList (c :: cs) = word := by rw [← htext, String.ofList_toList]
    rw [htext, Kind.ofLexeme_of_isLetter cs hc, hof, Kind.lookup_keywords_eq_some_iff.2 hk]
    rfl
  | @name c cs hc _ hfree =>
    have hnone : Kind.keywords.lookup (String.ofList (c :: cs)) = none :=
      Option.eq_none_iff_forall_ne_some.2 fun kind hk =>
        hfree kind (Kind.lookup_keywords_eq_some_iff.1 hk)
    rw [Kind.ofLexeme_of_isLetter cs hc, hnone]
    rfl
  | invalid hs hb hd hl => exact (Kind.ofLexeme_of_none hs hb hd hl).symm

theorem Spells.ne_endOfInput {text : List Char} {kind : Kind} (h : Spells text kind) :
    kind ≠ .endOfInput := by
  rintro rfl
  cases h with
  | symbol hs => cases hs
  | keyword hk => cases hk

theorem Spells.ne_nil {text : List Char} {kind : Kind} (h : Spells text kind) : text ≠ [] := by
  rintro rfl
  exact h.ne_endOfInput h.kind_eq

/-! ## How far a lexeme reaches -/

theorem isPrefix_takeWhile {α : Type} {p : α → Bool} {l m : List α} (h : l <+: m)
    (hl : ∀ a ∈ l, p a = true) : l <+: m.takeWhile p := by
  obtain ⟨rest, rfl⟩ := h
  rw [List.takeWhile_append_of_pos hl]
  exact List.prefix_append _ _

theorem takeWhile_isPrefix_numeralExtent (cs : List Char) :
    cs.takeWhile isDigit <+: numeralExtent cs := by
  simp only [numeralExtent]
  split
  · split
    · exact List.prefix_append _ _
    · exact List.prefix_rfl
  · exact List.prefix_rfl

theorem isPrefix_numeralExtent {whole part cs : List Char} (hw : ∀ c ∈ whole, isDigit c = true)
    (hp : IsDigits part) (h : whole ++ '.' :: part <+: cs) :
    whole ++ '.' :: part <+: numeralExtent cs := by
  obtain ⟨d, ds, rfl, hd, hds⟩ := hp.exists_cons
  obtain ⟨rest, rfl⟩ := h
  have hpoint : isDigit '.' = false := by decide
  have htake : (whole ++ '.' :: d :: (ds ++ rest)).takeWhile isDigit = whole := by
    rw [List.takeWhile_append_of_pos hw, List.takeWhile_cons_of_neg (by simp [hpoint]),
      List.append_nil]
  have hdrop : (whole ++ '.' :: d :: (ds ++ rest)).dropWhile isDigit =
      '.' :: d :: (ds ++ rest) := by
    rw [List.dropWhile_append_of_pos hw, List.dropWhile_cons_of_neg (by simp [hpoint])]
  have hextent : numeralExtent (whole ++ '.' :: d :: (ds ++ rest)) =
      whole ++ '.' :: d :: (ds ++ rest).takeWhile isDigit := by
    simp only [numeralExtent, htake, hdrop, hd, if_true]
  have hpart : ds <+: (ds ++ rest).takeWhile isDigit :=
    isPrefix_takeWhile (List.prefix_append ds rest) hds
  rw [List.append_assoc, List.cons_append, List.cons_append, hextent]
  simpa using hpart

theorem isPrefix_of_singleton {d c : Char} {cs rest : List Char} (h : [d] <+: c :: cs) :
    [d] <+: c :: rest := by
  rw [List.cons_prefix_cons] at h ⊢
  exact ⟨h.1, List.nil_prefix⟩

theorem isPrefix_of_comparison {d c : Char} {cs : List Char} (hd : d = '<' ∨ d = '>')
    (h : [d, '='] <+: c :: cs) : [d, '='] <+: c :: extent c cs := by
  obtain ⟨rfl, rest, rfl⟩ := List.cons_prefix_cons.1 h
  simp [extent, hd]

theorem extent_of_isDigit {c : Char} (hc : isDigit c = true) (cs : List Char) :
    extent c cs = numeralExtent cs := by
  have hless : c ≠ '<' := by rintro rfl; revert hc; decide
  have hgreater : c ≠ '>' := by rintro rfl; revert hc; decide
  simp [extent, hless, hgreater, hc]

/-- What is spelled at the front of a source lies inside the lexeme that is cut off there. -/
theorem Spells.isPrefix {text : List Char} {kind : Kind} (h : Spells text kind) {c : Char}
    {cs : List Char} (hfront : text <+: c :: cs) : text <+: c :: extent c cs := by
  have hword {d : Char} {ds : List Char} (hd : isLetter d = true)
      (hds : ∀ e ∈ ds, isWordChar e = true) (hw : d :: ds <+: c :: cs) :
      d :: ds <+: c :: extent c cs := by
    obtain ⟨rfl, htail⟩ := List.cons_prefix_cons.1 hw
    rw [extent_of_isLetter hd]
    exact List.cons_prefix_cons.2 ⟨rfl, isPrefix_takeWhile htail hds⟩
  cases h with
  | @symbol _ s hs =>
    -- symbols are single characters but for the two that end in an equals sign
    have hshort : ∀ s ∈ Kind.symbols, s.1.toList.length = 1 ∨ s.1.toList = ['<', '='] ∨
        s.1.toList = ['>', '='] := by decide
    rcases hshort (s, kind) (Kind.mem_symbols_of_symbol? hs) with hone | hless | hgreater
    · obtain ⟨d, hd⟩ := List.length_eq_one_iff.1 hone
      rw [hd] at hfront ⊢
      exact isPrefix_of_singleton hfront
    · rw [hless] at hfront ⊢
      exact isPrefix_of_comparison (.inl rfl) hfront
    · rw [hgreater] at hfront ⊢
      exact isPrefix_of_comparison (.inr rfl) hfront
  | blank | invalid => exact isPrefix_of_singleton hfront
  | whole hw =>
    obtain ⟨d, ds, rfl, hd, hds⟩ := hw.exists_cons
    obtain ⟨rfl, htail⟩ := List.cons_prefix_cons.1 hfront
    rw [extent_of_isDigit hd]
    have hpre := (isPrefix_takeWhile htail hds).trans (takeWhile_isPrefix_numeralExtent cs)
    exact List.cons_prefix_cons.2 ⟨rfl, hpre⟩
  | fraction hw hp =>
    obtain ⟨d, ds, rfl, hd, hds⟩ := hw.exists_cons
    obtain ⟨rfl, htail⟩ := List.cons_prefix_cons.1 hfront
    rw [extent_of_isDigit hd]
    exact List.cons_prefix_cons.2 ⟨rfl, isPrefix_numeralExtent hds hp htail⟩
  | keyword hk =>
    obtain ⟨d, ds, htext, hd, hds⟩ := word_of_keyword? hk
    rw [htext] at hfront ⊢
    exact hword hd hds hfront
  | name hd hds => exact hword hd hds hfront

theorem Spells.lexemes_eq {text : List Char} {kind : Kind} (h : Spells text kind) :
    lexemes text = [text] := by
  obtain ⟨c, cs, rfl⟩ := List.exists_cons_of_ne_nil h.ne_nil
  have hreach : cs <+: extent c cs := (List.cons_prefix_cons.1 (h.isPrefix List.prefix_rfl)).2
  have hextent : extent c cs = cs :=
    (extent_isPrefix c cs).eq_of_length_le hreach.length_le
  rw [lexemes_cons, hextent, List.drop_length, lexemes_nil]

/-! ## Lexemes are spelled -/

theorem isDigits_takeWhile {c : Char} (hc : isDigit c = true) (cs : List Char) :
    IsDigits (c :: cs.takeWhile isDigit) where
  digits := List.forall_mem_cons.2 ⟨hc, fun _ hd => List.all_eq_true.1 List.all_takeWhile _ hd⟩
  nonempty := List.cons_ne_nil _ _

theorem spells_numeral {c : Char} (hc : isDigit c = true) (cs : List Char) :
    Spells (c :: numeralExtent cs) (.ofLexeme (c :: numeralExtent cs)) := by
  rw [Kind.ofLexeme_of_isDigit _ hc]
  simp only [numeralExtent]
  split
  · next d rest _ =>
    split
    · next hd => exact .fraction (isDigits_takeWhile hc cs) (isDigits_takeWhile hd rest)
    · exact .whole (isDigits_takeWhile hc cs)
  · exact .whole (isDigits_takeWhile hc cs)

theorem spells_word {c : Char} {cs : List Char} (hc : isLetter c = true)
    (hcs : ∀ d ∈ cs, isWordChar d = true) : Spells (c :: cs) (.ofLexeme (c :: cs)) := by
  rw [Kind.ofLexeme_of_isLetter cs hc]
  cases hk : Kind.keywords.lookup (String.ofList (c :: cs)) with
  | none =>
    refine .name hc hcs fun kind hkind => ?_
    rw [Kind.lookup_keywords_eq_some_iff.2 hkind] at hk
    cases hk
  | some kind =>
    have hword := Spells.keyword (Kind.lookup_keywords_eq_some_iff.1 hk)
    rwa [String.toList_ofList] at hword

theorem spells_singleton {c : Char} (hd : isDigit c = false) (hl : isLetter c = false) :
    Spells [c] (.ofLexeme [c]) := by
  by_cases hs : ∃ kind : Kind, kind.symbol? = some (String.ofList [c])
  · obtain ⟨kind, hs⟩ := hs
    have hsymbol := Spells.symbol hs
    rwa [String.toList_ofList, hsymbol.kind_eq] at hsymbol
  · have hnone := not_exists.1 hs
    by_cases hb : isBlank c = true
    · have hn : c ≠ '\n' := by
        rintro rfl
        exact hnone .newline rfl
      rw [Kind.ofLexeme_of_isBlank hb hn]
      exact .blank hb hn
    · have hb' : isBlank c = false := by simpa using hb
      rw [Kind.ofLexeme_of_none hnone hb' hd hl]
      exact .invalid hnone hb' hd hl

theorem spells_extent (c : Char) (cs : List Char) :
    Spells (c :: extent c cs) (.ofLexeme (c :: extent c cs)) := by
  by_cases hd : isDigit c = true
  · rw [extent_of_isDigit hd]
    exact spells_numeral hd cs
  by_cases hl : isLetter c = true
  · rw [extent_of_isLetter hl]
    exact spells_word hl fun d hd => List.all_eq_true.1 List.all_takeWhile d hd
  have hsingle : Spells [c] (.ofLexeme [c]) :=
    spells_singleton (Bool.eq_false_iff.2 hd) (Bool.eq_false_iff.2 hl)
  by_cases hc : c = '<' ∨ c = '>'
  · by_cases heq : cs.head? = some '='
    · have hextent : extent c cs = ['='] := by simp [extent, hc, heq]
      rw [hextent]
      rcases hc with rfl | rfl
      · have hless : Spells "<=".toList (.operator .lessEqual) := .symbol rfl
        exact hless
      · have hgreater : Spells ">=".toList (.operator .greaterEqual) := .symbol rfl
        exact hgreater
    · have hextent : extent c cs = [] := by simp [extent, hc, heq]
      rwa [hextent]
  · have hextent : extent c cs = [] := by simp [extent, hc, hd, hl]
    rwa [hextent]

/-! ## Longest matches -/

theorem longest_extent (c : Char) (cs : List Char) :
    Longest (c :: cs) (c :: extent c cs) (.ofLexeme (c :: extent c cs)) where
  spells := spells_extent c cs
  front := List.cons_prefix_cons.2 ⟨rfl, extent_isPrefix c cs⟩
  longest _ _ h hfront := (h.isPrefix hfront).length_le

theorem Longest.unique {source text text' : List Char} {kind kind' : Kind}
    (h : Longest source text kind) (h' : Longest source text' kind') :
    text = text' ∧ kind = kind' := by
  have hshorter : text <+: text' :=
    List.prefix_of_prefix_length_le h.front h'.front (h'.longest text kind h.spells h.front)
  have hlonger := h.longest text' kind' h'.spells h'.front
  obtain rfl := hshorter.eq_of_length_le hlonger
  exact ⟨rfl, h.spells.kind_eq.trans h'.spells.kind_eq.symm⟩

def readings (cs : List Char) : List (List Char × Kind) :=
  (lexemes cs).map fun text => (text, .ofLexeme text)

theorem readings_cons (c : Char) (cs : List Char) :
    readings (c :: cs) = (c :: extent c cs, .ofLexeme (c :: extent c cs)) ::
      readings (cs.drop (extent c cs).length) := by
  rw [readings, lexemes_cons]
  rfl

theorem spells_of_mem_readings {cs : List Char} {r : List Char × Kind} (h : r ∈ readings cs) :
    Spells r.1 r.2 := by
  fun_induction lexemes cs with
  | case1 => simp [readings] at h
  | case2 c cs ih =>
    rw [readings_cons, List.mem_cons] at h
    rcases h with rfl | h
    · exact spells_extent c cs
    · exact ih h

theorem spells_of_mem_lexemes {text cs : List Char} (h : text ∈ lexemes cs) :
    Spells text (.ofLexeme text) :=
  spells_of_mem_readings (List.mem_map_of_mem h)

theorem scans_readings (cs : List Char) : Scans cs (readings cs) := by
  fun_induction lexemes cs with
  | case1 => simpa [readings] using Scans.nil
  | case2 c cs ih =>
    have hsplit : c :: cs = (c :: extent c cs) ++ cs.drop (extent c cs).length := by
      rw [List.cons_append, List.prefix_iff_eq_append.1 (extent_isPrefix c cs)]
    have hfirst := longest_extent c cs
    rw [readings_cons]
    rw [hsplit] at hfirst ⊢
    exact .cons hfirst ih

theorem Scans.eq_readings {cs : List Char} {scanned : List (List Char × Kind)}
    (h : Scans cs scanned) : scanned = readings cs := by
  induction h with
  | nil => simp [readings]
  | @cons text rest kind more hfirst _ ih =>
    obtain ⟨c, cs, rfl⟩ := List.exists_cons_of_ne_nil hfirst.spells.ne_nil
    obtain ⟨htext, hkind⟩ := hfirst.unique (longest_extent c (cs ++ rest))
    obtain ⟨-, hcs⟩ := List.cons.inj htext
    rw [List.cons_append, readings_cons, ← hcs, List.drop_left, ← ih, hkind, ← hcs]

theorem scans_iff {cs : List Char} {scanned : List (List Char × Kind)} :
    Scans cs scanned ↔ scanned = readings cs :=
  ⟨Scans.eq_readings, fun h => h ▸ scans_readings cs⟩

/-! ## Tokens -/

theorem exists_place (p : Position) (texts : List (List Char)) :
    ∃ content, place p texts = content ++ [⟨.endOfInput, "", p.after texts.flatten⟩] ∧
      content.map (fun t => (t.lexeme.toList, t.kind)) =
        texts.map fun text => (text, .ofLexeme text) := by
  induction texts generalizing p with
  | nil => exact ⟨[], rfl, rfl⟩
  | cons text rest ih =>
    obtain ⟨content, hplace, hcontent⟩ := ih (p.after text)
    refine ⟨⟨.ofLexeme text, String.ofList text, p⟩ :: content, ?_, ?_⟩
    · rw [place, hplace, List.flatten_cons, Position.after_append]
      rfl
    · rw [List.map_cons, List.map_cons, hcontent, String.toList_ofList]

theorem exists_allTokens (source : String) :
    ∃ content, allTokens source =
        content ++ [⟨.endOfInput, "", Position.start.after source.toList⟩] ∧
      content.map (fun t => (t.lexeme.toList, t.kind)) = readings source.toList := by
  obtain ⟨content, hplace, hcontent⟩ := exists_place .start (lexemes source.toList)
  rw [flatten_lexemes] at hplace
  exact ⟨content, hplace, hcontent⟩

/-- The tokens in front of the end of input are the longest lexemes of the text, one after the
other, with the kinds that they spell. There is no other way to cut the text into longest
lexemes. -/
theorem allTokens_longestMatch (source : String) :
    ∃ content last, allTokens source = content ++ [last] ∧ last.kind = .endOfInput ∧
      ∀ scanned, Scans source.toList scanned ↔
        scanned = content.map fun t => (t.lexeme.toList, t.kind) := by
  obtain ⟨content, htokens, hcontent⟩ := exists_allTokens source
  refine ⟨content, _, htokens, rfl, fun scanned => ?_⟩
  rw [hcontent, scans_iff]

/-- A second point ends a numeral, and no digit is needed in front of it. -/
example : (readings "1.2.3..4<==".toList).map Prod.fst =
    ["1.2", ".", "3", ".", ".", "4", "<=", "="].map String.toList := by
  decide +kernel

end Scratchpad
