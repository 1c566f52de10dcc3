import Scratchpad.Proofs.Layout

/-! Line breaks in reports. A diagnostic quotes the lexeme at which it arises, and among lexemes
only a line feed breaks a line. So a report has one line for each diagnostic, and one more for each
that arises at a line feed; of these a line of a document has none. -/
namespace Scratchpad

/-! ## Line breaks -/

/-- The codes of line feeds, vertical tabulators, form feeds and carriage returns, of the separators
of files, groups and records, of next lines, and of the ends of lines and paragraphs. -/
def lineBreakRanges : List (Nat × Nat) :=
  [(0xA, 0xD), (0x1C, 0x1E), (0x85, 0x85), (0x2028, 0x2029)]

def isLineBreak (c : Char) : Bool := inRanges lineBreakRanges c.toNat

theorem isBlank_of_isLineBreak {c : Char} (h : isLineBreak c = true) : isBlank c = true := by
  simp only [isLineBreak, lineBreakRanges, isBlank, blankRanges, inRanges] at h ⊢
  grind

def lineBreaks (text : String) : List Char := text.toList.filter isLineBreak

@[simp] theorem lineBreaks_append (a b : String) :
    lineBreaks (a ++ b) = lineBreaks a ++ lineBreaks b := by
  simp [lineBreaks]

theorem lineBreaks_eq_nil {text : String} (h : ∀ c ∈ text.toList, isBlank c = false) :
    lineBreaks text = [] := by
  rw [lineBreaks, List.filter_eq_nil_iff]
  intro c hc hbreak
  have hblank := isBlank_of_isLineBreak hbreak
  simp [h c hc] at hblank

@[simp] theorem lineBreaks_repr (n : Nat) : lineBreaks n.repr = [] := by
  refine lineBreaks_eq_nil fun c hc => ?_
  rw [Nat.toList_repr] at hc
  have hdigit := Nat.isDigit_of_mem_toDigits (by decide) (by decide) hc
  exact isBlank_of_isDigit (by simpa [Char.isDigit, isDigit, Char.le_def] using hdigit)

/-! ## Lexemes -/

theorem Spells.isBlank_of_mem {text : List Char} {kind : Kind} (h : Spells text kind)
    (hblank : kind ≠ .blank) (hnewline : kind ≠ .newline) {c : Char} (hc : c ∈ text) :
    isBlank c = false := by
  have htail : c ∈ text.tail → isBlank c = false := h.isBlank_of_mem_tail
  have hcons {d : Char} {ds : List Char} (hd : isBlank d = false)
      (hds : c ∈ ds → isBlank c = false) (hmem : c ∈ d :: ds) : isBlank c = false := by
    rcases List.mem_cons.1 hmem with rfl | hmem
    · exact hd
    · exact hds hmem
  cases h with
  | @symbol _ s hs =>
    have hsymbols : ∀ s ∈ Kind.symbols, s.2 ≠ .newline →
        (s.1.toList.all fun d => !isBlank d) = true := by decide
    have hsymbol := hsymbols (s, kind) (Kind.mem_symbols_of_symbol? hs) hnewline
    simpa using List.all_eq_true.1 hsymbol c hc
  | blank => exact absurd rfl hblank
  | whole hw => exact isBlank_of_isDigit (hw.digits c hc)
  | fraction hw =>
    obtain ⟨d, ds, rfl, hd, -⟩ := hw.exists_cons
    exact hcons (isBlank_of_isDigit hd) htail hc
  | keyword hk =>
    obtain ⟨d, ds, htext, hd, -⟩ := word_of_keyword? hk
    rw [htext] at hc htail
    exact hcons (isBlank_of_isLetter hd) htail hc
  | name hd => exact hcons (isBlank_of_isLetter hd) htail hc
  | invalid _ hb => exact hcons hb htail hc

theorem Spells.eq_of_newline {text : List Char} (h : Spells text .newline) : text = ['\n'] := by
  cases h with
  | symbol hs => cases hs; rfl
  | keyword hk => cases hk

/-- A lexeme that is not blank breaks a line if it is a line feed, and otherwise not. -/
theorem Spells.lineBreaks_eq {lexeme : String} {kind : Kind} (h : Spells lexeme.toList kind)
    (hblank : kind ≠ .blank) : lineBreaks lexeme = if kind = .newline then ['\n'] else [] := by
  by_cases hn : kind = .newline
  · subst hn
    rw [lineBreaks, h.eq_of_newline]
    rfl
  · rw [if_neg hn]
    exact lineBreaks_eq_nil fun c hc => h.isBlank_of_mem hblank hn hc

theorem spells_of_mem_allTokens {source : String} {t : Token} (h : t ∈ allTokens source) :
    t.kind = .endOfInput ∨ Spells t.lexeme.toList t.kind := by
  obtain ⟨content, htokens, hcontent⟩ := exists_allTokens source
  rw [htokens, List.mem_append, List.mem_singleton] at h
  rcases h with h | rfl
  · have hreading : (t.lexeme.toList, t.kind) ∈ readings source.toList := by
      rw [← hcontent]
      exact List.mem_map_of_mem h
    exact .inr (spells_of_mem_readings hreading)
  · exact .inl rfl

/-! ## Where faults arise -/

namespace Diagnostic

/-- A fault of reading, which arises at a token of a source or behind them all. -/
structure ArisesIn (stop : Token) (source : List Token) (d : Diagnostic) : Prop where
  fault : d.fault = .expectedExpression ∨ d.fault = .expectedClosing ∨ d.fault = .tooDeep
  token : ∃ t, d.token = some t ∧ (t ∈ source ∨ t = stop)

def atLineFeed (d : Diagnostic) : Bool := d.token.any fun t => t.kind = .newline

end Diagnostic

section
variable {stop : Token} {source : List Token}

theorem arisesIn_refuse {t : Token} {fault : Fault} (rest : List Token)
    (hfault : fault = .expectedExpression ∨ fault = .tooDeep) (ht : t ∈ source ∨ t = stop) :
    ∀ d ∈ (Parsed.refuse t fault rest).faults, d.ArisesIn stop source := by
  intro d hd
  obtain rfl := List.mem_singleton.1 hd
  exact ⟨hfault.imp_right .inr, t, rfl, ht⟩

theorem arisesIn_close {p : Parsed} (h : ∀ d ∈ p.faults, d.ArisesIn stop source)
    (hrest : p.rest <:+ source) : ∀ d ∈ (p.close stop).faults, d.ArisesIn stop source := by
  have hmissing {t : Token} (ht : t ∈ source ∨ t = stop) :
      ∀ d ∈ p.faults ++ [⟨.expectedClosing, some t⟩], d.ArisesIn stop source := by
    intro d hd
    rcases List.mem_append.1 hd with hd | hd
    · exact h d hd
    · obtain rfl := List.mem_singleton.1 hd
      exact ⟨.inr (.inl rfl), t, rfl, ht⟩
  simp only [Parsed.close]
  split
  · exact hmissing (.inr rfl)
  · next t ts hr =>
    rw [hr] at hrest
    split
    · exact h
    · exact hmissing (.inl (hrest.subset List.mem_cons_self))

theorem Reading.arisesIn {layer : Layer} {depth : Nat} {ts : List Token} {p : Parsed}
    (h : Reading stop layer depth ts p) (hsource : ts <:+ source) :
    ∀ d ∈ p.faults, d.ArisesIn stop source := by
  induction h with
  | assignTooDeep | minusTooDeep | groupTooDeep =>
    exact arisesIn_refuse _ (.inr rfl) (.inl (hsource.subset List.mem_cons_self))
  | @assign t colon name ts depth p _ _ _ ih =>
    have hsuffix : ts <:+ t :: colon :: ts := ⟨[t, colon], rfl⟩
    exact ih (hsuffix.trans hsource)
  | expression _ _ _ ih | operand _ ih | primary _ ih => exact ih hsource
  | @join level ts rest depth left right op hreading hleft _ _ ihl ihr =>
    have hbehind := hreading.rest_suffix
    rw [hleft] at hbehind
    have hrest : rest <:+ source := ((List.suffix_cons op rest).trans hbehind).trans hsource
    intro d hd
    rcases List.mem_append.1 hd with hd | hd
    · exact ihl hsource d hd
    · exact ihr hrest d hd
  | minus _ _ ih => exact ih ((List.suffix_cons _ _).trans hsource)
  | literal => simp
  | group _ hreading _ ih =>
    have hinside := (List.suffix_cons _ _).trans hsource
    exact arisesIn_close (ih hinside) (hreading.rest_suffix.trans hinside)
  | refuse => exact arisesIn_refuse _ (.inl rfl) (.inl (hsource.subset List.mem_cons_self))
  | finish => exact arisesIn_refuse _ (.inl rfl) (.inr rfl)

theorem arisesIn_statements {ts : List Token} (hsource : ts <:+ source) :
    ∀ d ∈ (statements stop ts).faults, d.ArisesIn stop source := by
  fun_induction statements stop ts with
  | case1 => simp
  | case2 t ts hn ih => exact ih ((List.suffix_cons t ts).trans hsource)
  | case3 t ts hn first more ih =>
    intro d hd
    rcases List.mem_append.1 hd with hd | hd
    · exact (reading_statement stop maxNesting (t :: ts)).arisesIn hsource d hd
    · exact ih (((statement stop maxNesting).suffix (t :: ts)).trans hsource) d hd

end

theorem arisesIn_parse (tokens : List Token) :
    ∀ d ∈ (parse tokens).faults, d.ArisesIn (feed tokens).stop (feed tokens).ahead :=
  arisesIn_statements List.suffix_rfl

/-! ## Reports -/

theorem lineBreaks_message {d : Diagnostic} {stop : Token} {source : List Token}
    (h : d.ArisesIn stop source) : lineBreaks d.fault.message = [] := by
  rcases h.fault with hf | hf | hf <;> rw [hf] <;> decide

/-- The report of a fault that reading a text has found. -/
theorem lineBreaks_describe {source : String} {d : Diagnostic}
    (h : d ∈ (parse (tokens source)).faults) :
    lineBreaks d.describe = if d.atLineFeed then ['\n'] else [] := by
  have harises := arisesIn_parse (tokens source) d h
  obtain ⟨t, htoken, ht⟩ := harises.token
  have hend : lineBreaks "end of input" = [] := by decide
  have hfound : lineBreaks (if t.kind = .endOfInput then "end of input" else t.lexeme) =
      if t.kind = .newline then ['\n'] else [] := by
    by_cases hstop : t.kind = .endOfInput
    · simp [hstop, hend]
    · rcases ht with ht | rfl
      · rw [ahead_feed] at ht
        have hmem := List.mem_filter.1 ((List.takeWhile_prefix _).subset ht)
        have hspells := (spells_of_mem_allTokens hmem.1).resolve_left hstop
        rw [if_neg hstop]
        exact hspells.lineBreaks_eq (by simpa using hmem.2)
      · exact absurd (kind_stop_feed (tokens source)) hstop
  have hmessage := lineBreaks_message harises
  have hwords : lineBreaks "error at " = [] ∧ lineBreaks ":" = [] ∧ lineBreaks " near '" = [] ∧
      lineBreaks "': " = [] := by decide
  have htext (text : String) : toString text = text := rfl
  simp [Diagnostic.describe, Diagnostic.atLineFeed, htoken, htext, hfound, hmessage, hwords,
    Nat.toString_eq_repr]

theorem atLineFeed_eq_false {source : String} (hsource : '\n' ∉ source.toList) {d : Diagnostic}
    (h : d ∈ (parse (tokens source)).faults) : d.atLineFeed = false := by
  obtain ⟨t, htoken, ht⟩ := (arisesIn_parse (tokens source) d h).token
  rw [Diagnostic.atLineFeed, htoken, Option.any_some, decide_eq_false_iff_not]
  intro hn
  rcases ht with ht | rfl
  · rw [ahead_feed] at ht
    have hgist : t.kind.gist = .newline := by
      rw [hn]
      rfl
    have hmeaning : t.kind.gist ∈ meaning source :=
      List.mem_map_of_mem ((List.takeWhile_prefix _).subset ht)
    rw [hgist, meaning_eq, List.mem_append, List.mem_singleton] at hmeaning
    rcases hmeaning with hmem | hend
    · exact newline_notMem_kindsOf hsource hmem
    · cases hend
  · simp [kind_stop_feed] at hn

/-! ## Runs -/

theorem mem_faults_runLineWithin {limit : Nat} {source : String} {env : Environment}
    {d : Diagnostic} (h : d ∈ (runLineWithin limit source env).1.faults) :
    d ∈ (parse (tokens source)).faults ∨ d = ⟨.tooDeep, none⟩ := by
  rw [runLineWithin] at h
  split at h
  · exact .inl h
  · simpa using h

theorem exists_mem_faults_runLinesWithin {limit : Nat} {sources : List String} {env : Environment}
    {d : Diagnostic} (h : d ∈ (runLinesWithin limit sources env).1.flatMap Line.faults) :
    ∃ source ∈ sources, ∃ env, d ∈ (runLineWithin limit source env).1.faults := by
  induction sources generalizing env with
  | nil => simp [runLinesWithin] at h
  | cons source rest ih =>
    rw [runLinesWithin, List.flatMap_cons, List.mem_append] at h
    rcases h with h | h
    · exact ⟨source, List.mem_cons_self, env, h⟩
    · obtain ⟨other, hother, env', hd⟩ := ih h
      exact ⟨other, List.mem_cons_of_mem source hother, env', hd⟩

theorem newline_notMem_of_mem_lines {text line : String} (h : line ∈ lines text) :
    '\n' ∉ line.toList := by
  have hsplit (cs : List Char) : ∀ part ∈ splitLines cs, '\n' ∉ part := by
    induction cs using lines_induction with
    | line a ha => simpa [splitLines_eq_singleton ha] using ha
    | more a b ha ih =>
      rw [splitLines_append, splitLines_eq_singleton ha, List.singleton_append]
      exact List.forall_mem_cons.2 ⟨ha, ih⟩
  obtain ⟨part, hpart, rfl⟩ := List.mem_map.1 h
  rw [String.toList_ofList]
  exact hsplit text.toList part hpart

theorem lineBreaks_report (diagnostics : List Diagnostic) :
    lineBreaks (report true diagnostics) =
      diagnostics.flatMap fun d => lineBreaks d.describe ++ ['\n'] := by
  have hfeed : lineBreaks "\n" = ['\n'] := by decide
  have hjoin (texts : List String) : lineBreaks (String.join texts) = texts.flatMap lineBreaks := by
    rw [lineBreaks, String.toList_join, List.filter_flatMap]
    rfl
  simp [report, hjoin, List.flatMap_map, hfeed]

theorem length_lineBreaks_report {diagnostics : List Diagnostic}
    (h : ∀ d ∈ diagnostics, lineBreaks d.describe = if d.atLineFeed then ['\n'] else []) :
    (lineBreaks (report true diagnostics)).length =
      diagnostics.length + diagnostics.countP Diagnostic.atLineFeed := by
  rw [lineBreaks_report]
  induction diagnostics with
  | nil => rfl
  | cons d diagnostics ih =>
    obtain ⟨hd, hrest⟩ := List.forall_mem_cons.1 h
    rw [List.flatMap_cons, List.length_append, ih hrest, hd, List.length_cons, List.countP_cons]
    cases d.atLineFeed <;> simp <;> omega

theorem lineBreaks_describe_of_run {limit : Nat} {source : String} {env : Environment}
    {d : Diagnostic} (hd : d ∈ (runLineWithin limit source env).1.faults) :
    lineBreaks d.describe = if d.atLineFeed then ['\n'] else [] := by
  rcases mem_faults_runLineWithin hd with hread | rfl
  · exact lineBreaks_describe hread
  · decide

theorem lineBreaks_describe_of_text {limit : Nat} {text : String} {env : Environment}
    {d : Diagnostic} (hd : d ∈ (runTextWithin limit text env).1.flatMap Line.faults) :
    d.atLineFeed = false ∧ lineBreaks d.describe = [] := by
  obtain ⟨line, hline, env', hrun⟩ := exists_mem_faults_runLinesWithin hd
  have hfeed : d.atLineFeed = false := by
    rcases mem_faults_runLineWithin hrun with hread | rfl
    · exact atLineFeed_eq_false (newline_notMem_of_mem_lines hline) hread
    · rfl
  have hbreaks := lineBreaks_describe_of_run hrun
  rw [hfeed] at hbreaks
  exact ⟨hfeed, hbreaks⟩

/-- A diagnostic is reported on one line if it does not arise at a line feed, and otherwise on two,
with the line feed between them. A line of a document has no line feeds, so the report of a document
has as many lines as there are diagnostics. -/
theorem lineBreaks_of_faults (source : String) :
    (∀ d ∈ (parse (tokens source)).faults,
      lineBreaks d.describe = if d.atLineFeed then ['\n'] else []) ∧
    (∀ (limit : Nat) (env : Environment),
      let faults := (runLineWithin limit source env).1.faults
      (∀ d ∈ faults, lineBreaks d.describe = if d.atLineFeed then ['\n'] else []) ∧
        (lineBreaks (report true faults)).length =
          faults.length + faults.countP Diagnostic.atLineFeed) ∧
    ∀ (limit : Nat) (env : Environment),
      let faults := (runTextWithin limit source env).1.flatMap Line.faults
      (∀ d ∈ faults, lineBreaks d.describe = []) ∧
        (lineBreaks (report true faults)).length = faults.length := by
  refine ⟨fun d => lineBreaks_describe, fun limit env => ?_, fun limit env => ?_⟩
  · have hlines : ∀ d ∈ (runLineWithin limit source env).1.faults,
        lineBreaks d.describe = if d.atLineFeed then ['\n'] else [] :=
      fun d => lineBreaks_describe_of_run
    exact ⟨hlines, length_lineBreaks_report hlines⟩
  · intro faults
    have hfeed : ∀ d ∈ faults, d.atLineFeed = false :=
      fun d hd => (lineBreaks_describe_of_text hd).1
    have hlines : ∀ d ∈ faults, lineBreaks d.describe = [] :=
      fun d hd => (lineBreaks_describe_of_text hd).2
    have hnone : faults.countP Diagnostic.atLineFeed = 0 :=
      List.countP_eq_zero.2 fun d hd => by simp [hfeed d hd]
    refine ⟨hlines, ?_⟩
    rw [length_lineBreaks_report fun d hd => by rw [hlines d hd, hfeed d hd]; rfl, hnone,
      Nat.add_zero]

/-- A sum without its second term, at the end of a line. -/
theorem lineBreaks_of_faults_unfinished :
    let faults := (parse (tokens "1 +\n")).faults
    (∀ d ∈ faults, lineBreaks d.describe = if d.atLineFeed then ['\n'] else []) ∧
      ∃ d ∈ faults, d.atLineFeed = true := by
  exact ⟨(lineBreaks_of_faults "1 +\n").1, by decide +kernel⟩

/-- The report of one diagnostic that takes two lines. -/
theorem report_with_line_feed :
    let faults := (runLineWithin usualLimit "1 +\n" .empty).1.faults
    faults.length = 1 ∧ (lineBreaks (report true faults)).length = 2 ∧
      report true faults = "error at 1:4 near '\n': expected expression\n" := by
  decide +kernel

end Scratchpad
