import Mathlib.Data.List.Forall2
import Scratchpad.Line
import Scratchpad.Proofs.Cuts
import Scratchpad.Proofs.Gist

/-! Spelling and layout carry no meaning. A line is worth what its tokens stand for, however they
are spelled and wherever they stand; blanks between them, words for operators and carriage returns
in front of line feeds change nothing about what a text shows. -/
namespace Scratchpad

/-! ## Meaning -/

/-- What the tokens of a text stand for, blanks left out, with one kind for both remainders. -/
def meaning (source : String) : List Kind := (tokens source).map fun t => t.kind.gist

def kindsOf (texts : List (List Char)) : List Kind :=
  ((texts.map Kind.ofLexeme).filter (· ≠ .blank)).map Kind.gist

@[simp] theorem kindsOf_append (texts more : List (List Char)) :
    kindsOf (texts ++ more) = kindsOf texts ++ kindsOf more := by
  simp [kindsOf]

theorem kindsOf_cons (text : List Char) (texts : List (List Char)) :
    kindsOf (text :: texts) = kindsOf [text] ++ kindsOf texts := kindsOf_append [text] texts

theorem kindsOf_singleton {text : List Char} {kind : Kind} (h : Spells text kind)
    (hkind : kind ≠ .blank) : kindsOf [text] = [kind.gist] := by
  simp [kindsOf, ← h.kind_eq, hkind]

theorem kindsOf_of_isBlank {c : Char} (hc : isBlank c = true) (hn : c ≠ '\n') :
    kindsOf [[c]] = [] := by
  simp [kindsOf, Kind.ofLexeme_of_isBlank hc hn]

theorem map_kind_place (p : Position) (texts : List (List Char)) :
    (place p texts).map Token.kind = texts.map Kind.ofLexeme ++ [.endOfInput] := by
  induction texts generalizing p with
  | nil => rfl
  | cons text rest ih => simp [place, ih]

theorem meaning_eq (source : String) :
    meaning source = kindsOf (lexemes source.toList) ++ [.endOfInput] := by
  have hfilter (ts : List Token) : (ts.filter fun t => t.kind ≠ .blank).map Token.kind =
      (ts.map Token.kind).filter (· ≠ .blank) := by
    rw [List.filter_map]
    rfl
  have hkinds : (tokens source).map Token.kind =
      ((lexemes source.toList).map Kind.ofLexeme).filter (· ≠ .blank) ++ [.endOfInput] := by
    rw [tokens, allTokens, hfilter, map_kind_place, List.filter_append]
    rfl
  have hmeaning : meaning source = ((tokens source).map Token.kind).map Kind.gist := by
    simp [meaning]
  rw [hmeaning, hkinds, List.map_append]
  rfl

/-! ## Runs of the same meaning -/

theorem map_gist_tokens (source : String) :
    (tokens source).map Token.gist = (meaning source).map fun kind => ⟨kind, "", .start⟩ := by
  simp [meaning, Token.gist]

theorem gist_parse_of_meaning {a b : String} (h : meaning b = meaning a) :
    (parse (tokens b)).gist = (parse (tokens a)).gist := by
  rw [gist_parse, gist_parse, map_gist_tokens, map_gist_tokens, h]

theorem evalAll_gist (limit : Nat) (statements : List Expr) (last : Expr) (env : Environment) :
    evalAll limit (statements.map Expr.gist) last env = evalAll limit statements last env := by
  induction statements generalizing last env with
  | nil => rfl
  | cons s rest ih =>
    rw [List.map_cons, evalAll, evalAll, evalWithin_gist]
    rcases s.evalWithin limit env with ⟨_ | v, env'⟩
    · rfl
    · exact ih v env'

/-- Two lines with the same value, display and messages, which leave the same environment. -/
structure RunsAlike (limit : Nat) (env : Environment) (a b : String) : Prop where
  value : (runLineWithin limit b env).1.value = (runLineWithin limit a env).1.value
  display : (runLineWithin limit b env).1.display = (runLineWithin limit a env).1.display
  messages : (runLineWithin limit b env).1.faults.map (·.fault.message) =
    (runLineWithin limit a env).1.faults.map (·.fault.message)
  environment : (runLineWithin limit b env).2 = (runLineWithin limit a env).2

theorem runsAlike_of_meaning (limit : Nat) (env : Environment) {a b : String}
    (h : meaning b = meaning a) : RunsAlike limit env a b := by
  have hgist := gist_parse_of_meaning h
  have hstatements := congrArg Program.statements hgist
  have heval : evalAll limit (parse (tokens b)).statements .nothing env =
      evalAll limit (parse (tokens a)).statements .nothing env := by
    rw [← evalAll_gist, ← evalAll_gist limit (parse (tokens a)).statements]
    exact congrArg (evalAll limit · .nothing env) hstatements
  have hmessages : (parse (tokens b)).faults.map (·.fault.message) =
      (parse (tokens a)).faults.map (·.fault.message) := by
    have hmap := congrArg (fun p => p.faults.map (·.fault.message)) hgist
    simpa [Program.gist, Diagnostic.gist, Function.comp_def] using hmap
  constructor
  all_goals
    rw [runLineWithin, runLineWithin, heval]
    rcases evalAll limit (parse (tokens a)).statements .nothing env with ⟨_ | v, env'⟩
  all_goals simp [hmessages]

theorem runLinesWithin_of_meaning {sources others : List String}
    (h : others.map meaning = sources.map meaning) (limit : Nat) (env : Environment) :
    let run := runLinesWithin limit sources env
    let run' := runLinesWithin limit others env
    run'.1.map Line.display = run.1.map Line.display ∧ run'.2 = run.2 := by
  induction sources generalizing others env with
  | nil =>
    obtain rfl := List.map_eq_nil_iff.1 h
    exact ⟨rfl, rfl⟩
  | cons source sources ih =>
    obtain ⟨other, others, rfl, hfirst, hrest⟩ := List.map_eq_cons_iff.1 h
    have hrun := runsAlike_of_meaning limit env hfirst
    have hbehind : (runLineWithin limit other env).2 = (runLineWithin limit source env).2 :=
      hrun.environment
    obtain ⟨hdisplays, henv⟩ := ih hrest (runLineWithin limit source env).2
    simp only [runLinesWithin, List.map_cons, hbehind, hdisplays, henv, and_true]
    exact congrArg (· :: _) hrun.display

/-! ## Texts of the same meaning -/

theorem lines_induction {motive : List Char → Prop} (line : ∀ a, '\n' ∉ a → motive a)
    (more : ∀ a b, '\n' ∉ a → motive b → motive (a ++ '\n' :: b)) (cs : List Char) :
    motive cs := by
  by_cases h : '\n' ∈ cs
  · obtain ⟨a, b, rfl, ha⟩ := List.eq_append_cons_of_mem h
    exact more a b ha (lines_induction line more b)
  · exact line cs h
termination_by cs.length

theorem kindsOf_newline : kindsOf [['\n']] = [.newline] := by
  have hspells : Spells "\n".toList .newline := .symbol rfl
  exact kindsOf_singleton hspells (by simp)

theorem lexemes_line_append (a b : List Char) :
    lexemes (a ++ '\n' :: b) = lexemes a ++ ['\n'] :: lexemes b :=
  lexemes_append_of_isBlank a (by decide) b

theorem exists_spells_of_mem_kindsOf {cs : List Char} {kind : Kind}
    (h : kind ∈ kindsOf (lexemes cs)) :
    ∃ text ∈ lexemes cs, ∃ spelled, Spells text spelled ∧ spelled.gist = kind := by
  obtain ⟨spelled, hspelled, hgist⟩ := List.mem_map.1 h
  obtain ⟨text, htext, rfl⟩ := List.mem_map.1 (List.mem_of_mem_filter hspelled)
  exact ⟨text, htext, _, spells_of_mem_lexemes htext, hgist⟩

theorem newline_notMem_kindsOf {line : List Char} (h : '\n' ∉ line) :
    Kind.newline ∉ kindsOf (lexemes line) := by
  intro hmem
  obtain ⟨text, htext, kind, hspells, hgist⟩ := exists_spells_of_mem_kindsOf hmem
  rw [(Kind.gist_eq_iff (by simp)).1 hgist] at hspells
  have hnewline : '\n' ∈ text := by
    cases hspells with
    | symbol hs => cases hs; simp
    | keyword hk => cases hk
  have hline := List.mem_flatten_of_mem htext hnewline
  rw [flatten_lexemes] at hline
  exact h hline

theorem map_kindsOf_splitLines (cs : List Char) :
    (splitLines cs).map (fun line => kindsOf (lexemes line)) =
      (kindsOf (lexemes cs)).splitOn .newline := by
  induction cs using lines_induction with
  | line a ha =>
    rw [splitLines_eq_singleton ha, List.splitOn_eq_singleton (newline_notMem_kindsOf ha)]
    rfl
  | more a b ha ih =>
    rw [splitLines_append, List.map_append, ih, splitLines_eq_singleton ha, lexemes_line_append,
      kindsOf_append, kindsOf_cons ['\n'], kindsOf_newline, List.singleton_append,
      List.splitOn_append_cons_self, List.splitOn_eq_singleton (newline_notMem_kindsOf ha)]
    rfl

theorem runTextWithin_of_meaning {text other : String} (h : meaning other = meaning text)
    (limit : Nat) (env : Environment) :
    let run := runTextWithin limit text env
    let run' := runTextWithin limit other env
    run'.1.map Line.display = run.1.map Line.display ∧ run'.2 = run.2 := by
  have hlines (source : String) : (lines source).map meaning =
      ((kindsOf (lexemes source.toList)).splitOn .newline).map (· ++ [.endOfInput]) := by
    rw [← map_kindsOf_splitLines, lines, List.map_map, List.map_map]
    exact List.map_congr_left fun line _ => by simp [meaning_eq]
  rw [meaning_eq, meaning_eq] at h
  refine runLinesWithin_of_meaning ?_ limit env
  rw [hlines, hlines, List.append_cancel_right h]

/-! ## Words for operators -/

/-- A lexeme as it is, or for the symbol of an operator the word, between spaces. -/
inductive Respelling : List Char → List Char → Prop where
  | same (text : List Char) : Respelling text text
  | word (op spoken : Operator) {symbol word : String} :
    op.symbol? = some symbol → spoken.word? = some word → spoken.gist = op.gist →
    Respelling symbol.toList (' ' :: word.toList ++ [' '])

/-- A text with words for some of its operators. -/
def Respells (text respelled : List Char) : Prop :=
  ∃ pieces, List.Forall₂ Respelling (lexemes text) pieces ∧ respelled = pieces.flatten

theorem isBlank_space : isBlank ' ' = true := by decide

theorem kindsOf_space_cons (texts : List (List Char)) :
    kindsOf ([' '] :: texts) = kindsOf texts := by
  rw [kindsOf_cons, kindsOf_of_isBlank isBlank_space (by decide), List.nil_append]

/-- A word between spaces is cut out of a text. -/
theorem lexemes_spaced_word {op : Operator} {word : String} (hw : op.word? = some word)
    (front back : List Char) :
    lexemes (front ++ ' ' :: word.toList ++ ' ' :: back) =
      lexemes front ++ [' '] :: word.toList :: [' '] :: lexemes back := by
  have hkeyword : (Kind.operator op).keyword? = some word := hw
  obtain ⟨c, cs, htext, hc, hcs⟩ := word_of_keyword? hkeyword
  have hspace : ∀ d ∈ (' ' :: back).head?, isWordChar d = false := by
    simpa using (by decide : isWordChar ' ' = false)
  have hback : lexemes (' ' :: back) = [' '] :: lexemes back :=
    lexemes_cons_of_extent (extent_of_isBlank isBlank_space back)
  rw [List.append_assoc, List.cons_append, lexemes_append_of_isBlank front isBlank_space, htext,
    lexemes_word_append hc hcs hspace, hback]

/-- Behind lexemes that are cut off already, words for operators leave the kinds as they are. -/
theorem exists_lexemes_respelled {texts pieces : List (List Char)}
    (h : List.Forall₂ Respelling texts pieces) {front : List (List Char)}
    (hfront : lexemes (front ++ texts).flatten = front ++ texts) :
    ∃ respelled, lexemes (front ++ pieces).flatten = front ++ respelled ∧
      kindsOf respelled = kindsOf texts := by
  -- What is respelled joins the front. The lexemes behind it are still those of the text.
  induction h generalizing front with
  | nil => exact ⟨[], hfront, rfl⟩
  | @cons text piece texts pieces hpiece _ ih =>
    cases hpiece with
    | same =>
      have hcut : lexemes ((front ++ [text]) ++ texts).flatten = (front ++ [text]) ++ texts := by
        simpa using hfront
      obtain ⟨respelled, hrespelled, hkinds⟩ := ih hcut
      refine ⟨text :: respelled, by simpa using hrespelled, ?_⟩
      rw [kindsOf_cons, hkinds, ← kindsOf_cons]
    | @word op spoken symbol word hsymbol hword hgist =>
      obtain ⟨hcut, -⟩ := lexemes_flatten hfront
      rw [List.append_cons] at hfront
      obtain ⟨-, hback⟩ := lexemes_flatten hfront
      have hspaced : lexemes ((front ++ [[' '], word.toList, [' ']]) ++ texts).flatten =
          (front ++ [[' '], word.toList, [' ']]) ++ texts := by
        have hwords := lexemes_spaced_word hword front.flatten texts.flatten
        rw [hcut, hback] at hwords
        simpa using hwords
      obtain ⟨respelled, hrespelled, hkinds⟩ := ih hspaced
      refine ⟨[' '] :: word.toList :: [' '] :: respelled, by simpa using hrespelled, ?_⟩
      have hspoken : Spells word.toList (.operator spoken) := .keyword hword
      have hwritten : Spells symbol.toList (.operator op) := .symbol hsymbol
      have hsame : kindsOf [word.toList] = kindsOf [symbol.toList] := by
        rw [kindsOf_singleton hspoken (by simp), kindsOf_singleton hwritten (by simp), Kind.gist,
          Kind.gist, hgist]
      rw [kindsOf_space_cons, kindsOf_cons word.toList, kindsOf_space_cons, hsame, hkinds,
        ← kindsOf_cons]

theorem kindsOf_respelled {text respelled : List Char} (h : Respells text respelled) :
    kindsOf (lexemes respelled) = kindsOf (lexemes text) := by
  obtain ⟨pieces, hpieces, rfl⟩ := h
  have hall : lexemes ([] ++ lexemes text).flatten = [] ++ lexemes text := by
    rw [List.nil_append, flatten_lexemes]
  obtain ⟨texts, htexts, hkinds⟩ := exists_lexemes_respelled hpieces hall
  rw [← hkinds]
  exact congrArg kindsOf htexts

theorem meaning_of_respells {source other : String} (h : Respells source.toList other.toList) :
    meaning other = meaning source := by
  rw [meaning_eq, meaning_eq, kindsOf_respelled h]

/-! ## Carriage returns -/

def withReturns (text : List Char) : List Char :=
  text.flatMap fun c => if c = '\n' then ['\r', '\n'] else [c]

theorem withReturns_of_line {line : List Char} (h : '\n' ∉ line) : withReturns line = line := by
  induction line with
  | nil => rfl
  | cons c line ih =>
    rw [List.mem_cons, not_or] at h
    have hrest := ih h.2
    rw [withReturns] at hrest
    simp [withReturns, hrest, Ne.symm h.1]

theorem withReturns_line_append {line : List Char} (h : '\n' ∉ line) (rest : List Char) :
    withReturns (line ++ '\n' :: rest) = line ++ '\r' :: '\n' :: withReturns rest := by
  have hline := withReturns_of_line h
  rw [withReturns] at hline
  simp [withReturns, hline]

theorem kindsOf_withReturns (text : List Char) :
    kindsOf (lexemes (withReturns text)) = kindsOf (lexemes text) := by
  induction text using lines_induction with
  | line a ha => rw [withReturns_of_line ha]
  | more a b ha ih =>
    have hfeed : lexemes ('\n' :: withReturns b) = ['\n'] :: lexemes (withReturns b) := by
      simpa using lexemes_line_append [] (withReturns b)
    rw [withReturns_line_append ha, lexemes_append_of_isBlank a (by decide), hfeed,
      lexemes_line_append, kindsOf_append, kindsOf_append, kindsOf_cons ['\r'],
      kindsOf_of_isBlank (by decide) (by decide), List.nil_append, kindsOf_cons, ih, ← kindsOf_cons]

theorem meaning_withReturns (source : String) :
    meaning (String.ofList (withReturns source.toList)) = meaning source := by
  rw [meaning_eq, meaning_eq, String.toList_ofList, kindsOf_withReturns]

/-! ## Spelling and layout -/

/-- Lines whose tokens stand for the same run alike, wherever their blanks are. A text shows the
same with words for its operators, and with carriage returns in front of its line feeds. -/
theorem runsAlike_of_layout (limit : Nat) (env : Environment) :
    (∀ a b, meaning b = meaning a → RunsAlike limit env a b) ∧
      (∀ a b : String, Respells a.toList b.toList →
        RunsAlike limit env a b ∧
          (runTextWithin limit b env).1.map Line.display =
            (runTextWithin limit a env).1.map Line.display) ∧
      ∀ text : String,
        RunsAlike limit env text (String.ofList (withReturns text.toList)) ∧
          (runTextWithin limit (String.ofList (withReturns text.toList)) env).1.map Line.display =
            (runTextWithin limit text env).1.map Line.display := by
  refine ⟨fun a b => runsAlike_of_meaning limit env, fun a b h => ?_, fun text => ?_⟩
  · have hmeaning := meaning_of_respells h
    exact ⟨runsAlike_of_meaning limit env hmeaning, (runTextWithin_of_meaning hmeaning limit env).1⟩
  · have hmeaning := meaning_withReturns text
    exact ⟨runsAlike_of_meaning limit env hmeaning, (runTextWithin_of_meaning hmeaning limit env).1⟩

/-- A remainder as a symbol and as a word, and a text of two lines in words. -/
theorem runsAlike_of_layout_words :
    let env := Environment.empty.bind "z" (.literal (.number (.ofDecimal false (.ofNumeral ['7']))))
    RunsAlike usualLimit env "z%(4" "z mod\t(4 " ∧
      (runLineWithin usualLimit "z%(4" env).1.display = "3" ∧
      (runTextWithin usualLimit "x: z times 2\nx over 7" env).1.map Line.display =
        (runTextWithin usualLimit "x: z*2\nx/7" env).1.map Line.display ∧
      (runTextWithin usualLimit "x: z*2\nx/7" env).1.map Line.display = ["14", "2"] := by
  intro env
  have hmeaning : meaning "z mod\t(4 " = meaning "z%(4" := by decide +kernel
  have htimes : Respelling ['*'] (' ' :: "times".toList ++ [' ']) :=
    .word .times .times rfl rfl rfl
  have hover : Respelling ['/'] (' ' :: "over".toList ++ [' ']) :=
    .word .dividedBy .dividedBy rfl rfl rfl
  have hlexemes : lexemes "x: z*2\nx/7".toList =
      [['x'], [':'], [' '], ['z'], ['*'], ['2'], ['\n'], ['x'], ['/'], ['7']] := by
    decide +kernel
  have hrespells : Respells "x: z*2\nx/7".toList "x: z times 2\nx over 7".toList := by
    refine ⟨[['x'], [':'], [' '], ['z'], ' ' :: "times".toList ++ [' '], ['2'], ['\n'], ['x'],
      ' ' :: "over".toList ++ [' '], ['7']], ?_, by decide⟩
    rw [hlexemes]
    simp only [List.forall₂_cons, Respelling.same, htimes, hover, List.Forall₂.nil, and_self]
  obtain ⟨halike, hwords, -⟩ := runsAlike_of_layout usualLimit env
  exact ⟨halike _ _ hmeaning, by decide +kernel, (hwords _ _ hrespells).2, by decide +kernel⟩

end Scratchpad
