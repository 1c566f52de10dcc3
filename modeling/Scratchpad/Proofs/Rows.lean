import Scratchpad.Proofs.Isolation
import Scratchpad.Proofs.LineBreaks
import Scratchpad.Proofs.Numerals

/-! Texts that stay on one line: those of numbers and of values, quoted texts and the listings of
tokens, and the names that a line binds. Written with a line feed behind each, they are the lines of
the text that they make up. -/
namespace Scratchpad

theorem lineBreaks_eq_nil_iff {text : String} :
    lineBreaks text = [] ↔ ∀ c ∈ text.toList, isLineBreak c = false := by
  simp [lineBreaks]

/-! ## Rows -/

theorem newline_notMem_of_lineBreaks {text : String} (h : lineBreaks text = []) :
    '\n' ∉ text.toList := by
  intro hmem
  have hbreak := lineBreaks_eq_nil_iff.1 h '\n' hmem
  revert hbreak
  decide

/-- Rows without line breaks are the lines of the text that they make up. -/
theorem lines_join_rows {rows : List String} (h : ∀ row ∈ rows, lineBreaks row = []) :
    lines (String.join (rows.map (· ++ "\n"))) = rows ++ [""] := by
  induction rows with
  | nil => rfl
  | cons row rows ih =>
    obtain ⟨hrow, hrows⟩ := List.forall_mem_cons.1 h
    have hline : lines row = [row] := by
      rw [lines, splitLines_eq_singleton (newline_notMem_of_lineBreaks hrow)]
      simp
    rw [List.map_cons, String.join_cons, lines_append, ih hrows, hline]
    rfl

theorem lineBreaks_intercalate {separator : String} (hseparator : lineBreaks separator = [])
    {texts : List String} (h : ∀ text ∈ texts, lineBreaks text = []) :
    lineBreaks (separator.intercalate texts) = [] := by
  induction texts with
  | nil => rw [String.intercalate_nil]; rfl
  | cons text texts ih =>
    obtain ⟨htext, htexts⟩ := List.forall_mem_cons.1 h
    by_cases hne : texts = []
    · rw [hne, String.intercalate_singleton, htext]
    · rw [String.intercalate_cons_of_ne_nil hne]
      simp [htext, hseparator, ih htexts]

/-! ## Digits -/

theorem isLineBreak_digitChar {n : Nat} (hn : n < 16) : isLineBreak n.digitChar = false := by
  have hall : ∀ n < 16, isLineBreak (Nat.digitChar n) = false := by decide
  exact hall n hn

theorem isLineBreak_of_mem_toDigits {base n : Nat} (hbase : 1 < base) (hle : base ≤ 16) {c : Char}
    (h : c ∈ Nat.toDigits base n) : isLineBreak c = false := by
  induction n using Nat.strongRecOn with
  | ind n ih =>
    rw [Nat.toDigits_eq_if hbase] at h
    split at h
    · next hn =>
      rw [List.mem_singleton.1 h]
      exact isLineBreak_digitChar (by omega)
    · next hn =>
      rcases List.mem_append.1 h with h | h
      · exact ih (n / base) (Nat.div_lt_self (by omega) hbase) h
      · have hlast : n % base < base := Nat.mod_lt n (by omega)
        rw [List.mem_singleton.1 h]
        exact isLineBreak_digitChar (by omega)

theorem isLineBreak_of_mem_leftpad {places base n : Nat} (hbase : 1 < base) (hle : base ≤ 16)
    {c : Char} (h : c ∈ List.leftpad places '0' (Nat.toDigits base n)) : isLineBreak c = false := by
  rcases List.mem_append.1 h with h | h
  · rw [List.eq_of_mem_replicate h]
    decide
  · exact isLineBreak_of_mem_toDigits hbase hle h

/-! ## Values -/

theorem isBlank_of_all {text : String} (h : (text.toList.all fun c => !isBlank c) = true) :
    ∀ c ∈ text.toList, isBlank c = false := by
  simpa using h

theorem Binary64.isBlank_of_mem_text (x : Binary64) : ∀ c ∈ x.text.toList, isBlank c = false := by
  have hnumeral (d : Decimal) : ∀ c ∈ d.numeral, isBlank c = false := fun c =>
    d.plainNumeral_numeral.spells.isBlank_of_mem (by simp) (by simp)
  match x with
  | .nan | .infinite false | .infinite true => exact isBlank_of_all (by decide)
  | .finite false units fits =>
    rw [text, String.toList_ofList]
    exact hnumeral _
  | .finite true units fits =>
    rw [text, String.toList_ofList]
    exact List.forall_mem_cons.2 ⟨by decide, hnumeral _⟩

/-- What is shown for a value holds no blanks, whatever the environment. -/
theorem isBlank_of_mem_display (v : Expr) (env : Environment) :
    ∀ c ∈ (v.display env).toList, isBlank c = false := by
  rcases v.display_eq_empty_or_text env with h | ⟨atom, hatom, h⟩
  · rw [h]
    exact List.forall_mem_nil _
  · rw [h]
    match atom, hatom with
    | .boolean true, _ | .boolean false, _ => exact isBlank_of_all (by decide)
    | .number x, _ => exact x.isBlank_of_mem_text
    | .name n, hatom => exact absurd rfl (hatom n)

@[simp] theorem lineBreaks_display (v : Expr) (env : Environment) :
    lineBreaks (v.display env) = [] := lineBreaks_eq_nil (isBlank_of_mem_display v env)

theorem isBlank_of_mem_displays {limit : Nat} {sources : List String} {env : Environment}
    {display : String} (h : display ∈ (runLinesWithin limit sources env).1.map Line.display) :
    ∀ c ∈ display.toList, isBlank c = false := by
  induction sources generalizing env with
  | nil => simp [runLinesWithin] at h
  | cons source rest ih =>
    rw [runLinesWithin, List.map_cons, List.mem_cons] at h
    rcases h with rfl | h
    · rw [runLineWithin]
      split
      · exact isBlank_of_mem_display _ _
      · exact List.forall_mem_nil _
    · exact ih h

/-! ## Tokens -/

theorem isLineBreak_of_isPrintable {c : Char} (h : isPrintable c = true) : isLineBreak c = false :=
  inRanges_eq_false_of_disjoint (by decide +kernel) h

theorem isLineBreak_of_mem_escape {quote c d : Char} (hquote : isLineBreak quote = false)
    (h : d ∈ Quoted.escape quote c) : isLineBreak d = false := by
  have hcode {places : Nat} {mark : Char} (hmark : isLineBreak mark = false)
      (h : d ∈ '\\' :: mark :: Quoted.hexadecimal places c.toNat) : isLineBreak d = false := by
    rcases List.mem_cons.1 h with rfl | h
    · decide
    · rcases List.mem_cons.1 h with rfl | h
      · exact hmark
      · exact isLineBreak_of_mem_leftpad (by decide) (by decide) h
  have hpair {mark : Char} (hmark : isLineBreak mark = false) (h : d ∈ ['\\', mark]) :
      isLineBreak d = false := by
    rcases List.mem_cons.1 h with rfl | h
    · decide
    · rwa [List.mem_singleton.1 h]
  rw [Quoted.escape] at h
  split at h
  · next hc =>
    have hmark : isLineBreak c = false := by
      rcases Bool.or_eq_true_iff.1 hc with hc | hc
      · rwa [of_decide_eq_true hc]
      · rw [of_decide_eq_true hc]
        decide
    exact hpair hmark h
  split at h
  · exact hpair (by decide) h
  split at h
  · exact hpair (by decide) h
  split at h
  · exact hpair (by decide) h
  split at h
  · next hprintable =>
    rw [List.mem_singleton.1 h]
    exact isLineBreak_of_isPrintable hprintable
  split at h
  · exact hcode (by decide) h
  split at h
  · exact hcode (by decide) h
  · exact hcode (by decide) h

@[simp] theorem lineBreaks_quoted (text : String) : lineBreaks (quoted text) = [] := by
  have hquote : isLineBreak (Quoted.quoteFor text.toList) = false := by
    rw [Quoted.quoteFor]
    split <;> decide
  rw [lineBreaks_eq_nil_iff, quoted, String.toList_ofList, List.cons_append, List.forall_mem_cons,
    List.forall_mem_append, List.forall_mem_singleton]
  refine ⟨hquote, fun d hd => ?_, hquote⟩
  obtain ⟨c, -, hd⟩ := List.mem_flatMap.1 hd
  exact isLineBreak_of_mem_escape hquote hd

@[simp] theorem lineBreaks_label (k : Kind) : lineBreaks k.label = [] := by
  cases k with
  | identifier name =>
    show lineBreaks "IDENT" = []
    decide
  | number value =>
    show lineBreaks "NUMBER" = []
    decide
  | boolean value => cases value <;> decide
  | operator op => cases op <;> decide
  | _ => decide

@[simp] theorem lineBreaks_inspect (t : Token) : lineBreaks t.inspect = [] := by
  have hwords : lineBreaks "Tok(" = [] ∧ lineBreaks ", " = [] ∧ lineBreaks ":" = [] ∧
      lineBreaks ")" = [] := by decide
  have htext (text : String) : toString text = text := rfl
  simp [Token.inspect, htext, hwords, Nat.toString_eq_repr]

/-! ## Names -/

theorem exists_mem_of_mem_assignedNames {ts : List Token} {name : String}
    (h : name ∈ assignedNames ts) : ∃ t ∈ ts, t.kind = .identifier name := by
  fun_induction assignedNames ts with
  | case1 t colon ts n hc ht ih =>
    rcases List.mem_cons.1 h with rfl | h
    · exact ⟨t, List.mem_cons_self, ht⟩
    · obtain ⟨u, hu, hname⟩ := ih h
      exact ⟨u, List.mem_cons_of_mem t hu, hname⟩
  | case2 t colon ts _ ih =>
    obtain ⟨u, hu, hname⟩ := ih h
    exact ⟨u, List.mem_cons_of_mem t hu, hname⟩
  | case3 => simp at h

theorem Spells.eq_name {text : List Char} {name : String} (h : Spells text (.identifier name)) :
    name = String.ofList text := by
  cases h with
  | symbol hs => cases hs
  | keyword hk => cases hk
  | name => rfl

theorem spells_of_mem_writes {limit : Nat} {source : String} {env : Environment}
    {b : String × Expr} (h : b ∈ Line.writes limit source env) :
    Spells b.1.toList (.identifier b.1) := by
  obtain ⟨t, ht, hkind⟩ := exists_mem_of_mem_assignedNames (mem_assignedNames_of_mem_writes h)
  have hspells := spells_of_mem_allTokens (List.mem_filter.1 ht).1
  rw [hkind] at hspells
  have hname := hspells.resolve_left (by simp)
  have htext : b.1 = t.lexeme := by rw [hname.eq_name, String.ofList_toList]
  rwa [← htext] at hname

theorem lineBreaks_of_mem_writes {limit : Nat} {source : String} {env : Environment}
    {b : String × Expr} (h : b ∈ Line.writes limit source env) : lineBreaks b.1 = [] := by
  rw [(spells_of_mem_writes h).lineBreaks_eq (by simp), if_neg (by simp)]

end Scratchpad
