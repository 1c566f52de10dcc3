import Mathlib.Data.List.Find
import Scratchpad.Proofs.Accounting
import Scratchpad.Proofs.LineStack
import Scratchpad.Proofs.Nesting
import Scratchpad.Proofs.Strays

/-! Commands hide no line. A line is a command if a slash stands in front, blanks apart, and no
statement begins with a slash: blanks are no tokens, line feeds in front of statements are skipped,
and then the slash is found at fault. So a line that is read without faults is never taken for a
command, whatever stands in front of it, and is put into the document. -/
namespace Scratchpad

/-! ## Blanks in front -/

theorem lexemes_blanks_append {blanks : List Char} (h : ∀ c ∈ blanks, isBlank c = true)
    (cs : List Char) :
    lexemes (blanks ++ cs) = blanks.map (fun c => [c]) ++ lexemes cs := by
  induction blanks with
  | nil => rfl
  | cons c blanks ih =>
    obtain ⟨hc, hblanks⟩ := List.forall_mem_cons.1 h
    rw [List.cons_append, lexemes_cons_of_extent (extent_of_isBlank hc _), ih hblanks]
    rfl

/-- Of blanks in front of a text, no tokens are left but those of line feeds. -/
theorem exists_newlines {blanks : List Char} (h : ∀ c ∈ blanks, isBlank c = true) (p : Position)
    (texts : List (List Char)) :
    ∃ newlines : List Token, (∀ t ∈ newlines, t.kind = .newline) ∧
      ((place p (blanks.map (fun c => [c]) ++ texts)).filter fun t => t.kind ≠ .blank) =
        newlines ++ (place (p.after blanks) texts).filter fun t => t.kind ≠ .blank := by
  induction blanks generalizing p with
  | nil => exact ⟨[], List.forall_mem_nil _, rfl⟩
  | cons c blanks ih =>
    obtain ⟨hc, hblanks⟩ := List.forall_mem_cons.1 h
    obtain ⟨newlines, hnewlines, hrest⟩ := ih hblanks (p.after [c])
    have hafter : p.after (c :: blanks) = (p.after [c]).after blanks := rfl
    rw [List.map_cons, List.cons_append, place, hafter]
    -- a line feed is a blank, but the only one whose token is kept
    by_cases hfeed : c = '\n'
    · subst hfeed
      have hkind : Kind.ofLexeme ['\n'] = .newline := by decide
      refine ⟨⟨.newline, "\n", p⟩ :: newlines, List.forall_mem_cons.2 ⟨rfl, hnewlines⟩, ?_⟩
      rw [hkind, List.filter_cons_of_pos (by simp), hrest]
      rfl
    · have hkind := Kind.ofLexeme_of_isBlank hc hfeed
      exact ⟨newlines, hnewlines, by rw [hkind, List.filter_cons_of_neg (by simp), hrest]⟩

def slashToken (line : String) : Token :=
  ⟨.operator .dividedBy, "/", Position.start.after (line.toList.takeWhile isBlank)⟩

theorem exists_blanks_of_opens {line : String} (h : Command.opens line = true) :
    ∃ rest, line.toList = line.toList.takeWhile isBlank ++ '/' :: rest := by
  obtain ⟨-, blanks, rest, htext, hblanks⟩ :=
    List.find?_eq_some_iff_append.1 (of_decide_eq_true h)
  have hstop : ('/' :: rest).takeWhile isBlank = [] := List.takeWhile_cons_of_neg (by decide)
  have hfront : line.toList.takeWhile isBlank = blanks := by
    rw [htext, List.takeWhile_append_of_pos fun c hc => by simpa using hblanks c hc, hstop,
      List.append_nil]
  exact ⟨rest, by rw [hfront, htext]⟩

theorem exists_tokens_of_opens {line : String} (h : Command.opens line = true) :
    ∃ newlines more, tokens line = newlines ++ slashToken line :: more ∧
      ∀ t ∈ newlines, t.kind = .newline := by
  obtain ⟨rest, htext⟩ := exists_blanks_of_opens h
  have hblanks : ∀ c ∈ line.toList.takeWhile isBlank, isBlank c = true :=
    fun c => List.mem_takeWhile_imp
  have hslash : lexemes ('/' :: rest) = ['/'] :: lexemes rest := lexemes_cons_of_extent rfl
  have hkind : Kind.ofLexeme ['/'] = .operator .dividedBy := by decide
  obtain ⟨newlines, hnewlines, hplaced⟩ :=
    exists_newlines hblanks .start (['/'] :: lexemes rest)
  rw [place, hkind, List.filter_cons_of_pos (by simp), ← hslash, ← lexemes_blanks_append hblanks,
    ← htext] at hplaced
  exact ⟨newlines, _, hplaced, hnewlines⟩

/-! ## Reading -/

theorem faults_ladder (levels : List Level) (operand : Reader) (ts : List Token) :
    ∃ more, ((ladder levels operand).read ts).faults = (operand.read ts).faults ++ more := by
  induction levels with
  | nil => exact ⟨[], (List.append_nil _).symm⟩
  | cons level levels ih =>
    obtain ⟨first, hfirst⟩ := ih
    obtain ⟨more, hmore⟩ := faults_chain level (ladder levels operand)
      ((ladder levels operand).read ts)
    refine ⟨first ++ more, ?_⟩
    rw [ladder_cons, Level.read_chained, hmore, hfirst, List.append_assoc]

section
variable (stop : Token)

theorem faults_statement_refuse {t : Token} (ha : ∀ atom : Atom, t.kind ≠ atom.kind)
    (hp : t.kind ≠ .openParen) (hm : t.kind ≠ .operator .minus) (depth : Nat) (ts : List Token) :
    ∃ more, ((statement stop depth).read (t :: ts)).faults =
      ⟨.expectedExpression, some t⟩ :: more := by
  have hb : ¬ BeginsAssignment (t :: ts) := by
    cases ts with
    | nil => exact id
    | cons colon ts => exact fun ⟨⟨name, hname⟩, _⟩ => ha (.name name) hname
  obtain ⟨more, hmore⟩ := faults_ladder Level.all (unary stop depth) (t :: ts)
  rw [unary_refuse ha hp hm] at hmore
  exact ⟨more, by rw [statement_expression hb]; exact hmore⟩

theorem statements_newlines_append {newlines : List Token} (h : ∀ t ∈ newlines, t.kind = .newline)
    (ts : List Token) : statements stop (newlines ++ ts) = statements stop ts := by
  induction newlines with
  | nil => rfl
  | cons t newlines ih =>
    obtain ⟨ht, hnewlines⟩ := List.forall_mem_cons.1 h
    rw [List.cons_append, statements_newline stop _ ht, ih hnewlines]

end

theorem faults_parse_refuse {newlines : List Token} (h : ∀ t ∈ newlines, t.kind = .newline)
    {t : Token} (hend : t.isEnd = false) (hn : t.kind ≠ .newline)
    (ha : ∀ atom : Atom, t.kind ≠ atom.kind) (hp : t.kind ≠ .openParen)
    (hm : t.kind ≠ .operator .minus) (ts : List Token) :
    ∃ more, (parse (newlines ++ t :: ts)).faults = ⟨.expectedExpression, some t⟩ :: more := by
  have hends : ∀ u ∈ newlines, u.isEnd = false := fun u hu => by simp [Token.isEnd, h u hu]
  obtain ⟨hahead, -⟩ := feed_append hends (List.cons_ne_nil t ts)
  obtain ⟨more, hmore⟩ := faults_statement_refuse (feed (newlines ++ t :: ts)).stop ha hp hm
    maxNesting (feed ts).ahead
  rw [parse, hahead, ahead_feed_cons hend, statements_newlines_append _ h, statements_cons _ _ hn]
  dsimp only
  exact ⟨_, by rw [hmore, List.cons_append]⟩

/-- Read as a line of the document, a command is at fault at its slash. -/
theorem faults_of_opens {line : String} (h : Command.opens line = true) :
    ∃ more,
      (parse (tokens line)).faults = ⟨.expectedExpression, some (slashToken line)⟩ :: more := by
  obtain ⟨newlines, rest, htokens, hnewlines⟩ := exists_tokens_of_opens h
  have hatom (atom : Atom) : (slashToken line).kind ≠ atom.kind := by
    cases atom <;> simp [slashToken, Atom.kind]
  rw [htokens]
  exact faults_parse_refuse hnewlines rfl (by simp [slashToken]) hatom (by simp [slashToken])
    (by simp [slashToken]) rest

theorem opens_of_faultless {line : String} (h : (parse (tokens line)).faults = []) :
    Command.opens line = false := by
  rw [← Bool.not_eq_true]
  intro hopens
  obtain ⟨more, hmore⟩ := faults_of_opens hopens
  simp [hmore] at h

/-! ## Typed lines -/

theorem Spells.eq_invalid_of_mem {text : List Char} {kind : Kind} (h : Spells text kind) {c : Char}
    (hc : c ∈ text) (hwidth : isWidthless c = true) : kind = .invalid := by
  have hcases : c = '\u200b' ∨ c = '\u200c' ∨ c = '\u200d' ∨ c = '\ufeff' := by
    simpa [isWidthless] using hwidth
  have hplain : c ≠ '<' ∧ c ≠ '>' ∧ isDigit c = false ∧ isLetter c = false := by
    rcases hcases with rfl | rfl | rfl | rfl <;> decide +kernel
  have halone : Kind.ofLexeme [c] = .invalid ∧ continues c = false := by
    rcases hcases with rfl | rfl | rfl | rfl <;> decide +kernel
  cases text with
  | nil => cases hc
  | cons d ds =>
    rcases List.mem_cons.1 hc with rfl | htail
    · have hextent : extent c ds = [] := by simp [extent, hplain]
      have hfront := h.isPrefix List.prefix_rfl
      rw [hextent] at hfront
      obtain rfl : ds = [] := by simpa using hfront.length_le
      rw [h.kind_eq, halone.1]
    · -- a lexeme goes on with word characters, a point or an equals sign only
      have hcontinues := h.continues_of_mem_tail htail
      rw [halone.2] at hcontinues
      cases hcontinues

theorem isWidthless_of_faultless {text : String} (h : (parse (tokens text)).faults = []) {c : Char}
    (hc : c ∈ text.toList) : isWidthless c = false := by
  rw [← Bool.not_eq_true]
  intro hwidth
  rw [← flatten_lexemes text.toList] at hc
  obtain ⟨lexeme, hlexeme, hmem⟩ := List.mem_flatten.1 hc
  have hkind := (spells_of_mem_lexemes hlexeme).eq_invalid_of_mem hmem hwidth
  have hspelled : (Kind.invalid, String.ofList lexeme) ∈ (tokens text).map Token.spelling := by
    rw [map_spelling_tokens, ← hkind]
    exact List.mem_append_left _ (List.mem_map_of_mem (List.mem_filter.2 ⟨hlexeme, by simp [hkind]⟩))
  obtain ⟨t, ht, hspelling⟩ := List.mem_map.1 hspelled
  exact not_isForeign_of_faultless h t ht (.inr (Prod.mk.inj hspelling).1)

/-- Where all strays of a typed line are blanks, taking them out leaves its first character that is
not blank. -/
theorem opens_normalize {typed : String} (h : ∀ c ∈ typed.toList, isWidthless c = false) :
    Command.opens (Session.normalize typed) = Command.opens typed := by
  have hsolid : ∀ c ∈ typed.toList, isBlank c = false → Session.isStray c = false := by
    intro c hc hblank
    rw [← Bool.not_eq_true]
    intro hstray
    rw [isBlank_of_isStray hstray (h c hc)] at hblank
    cases hblank
  have hfind : (typed.toList.filter fun c => !Session.isStray c).find? (fun c => !isBlank c) =
      typed.toList.find? fun c => !isBlank c := by
    rw [List.find?_filter]
    refine List.find?_congr fun c hc => ?_
    cases hblank : isBlank c with
    | true => simp
    | false => simp [hsolid c hc hblank]
  rw [Command.opens, Command.opens, Session.normalize, String.toList_ofList, hfind]

/-! ## Documents -/

/-- What a notepad is after a line has been put into it: the line is the last of the buffer, and the
lines that it consists of are the last of the document. -/
structure Notepad.Adds (pad : Notepad) (line : String) (after : Notepad) : Prop where
  buffer : after.buffer = pad.buffer ++ [line]
  text : after.document.text = unlines (pad.buffer ++ [line])
  last : lines line <:+ after.document.results.map Line.source

theorem Notepad.adds_append (limit : Nat) (pad : Notepad) (line : String) :
    pad.Adds line (pad.append limit line) := by
  have hne : pad.buffer ++ [line] ≠ [] := by simp
  have happend : (pad.append limit line).document =
      pad.document.update limit (unlines (pad.buffer ++ [line])) false := by
    simp [Notepad.append, Notepad.refresh]
  refine ⟨buffer_append pad line, by rw [happend]; rfl, ?_⟩
  have hsources : (pad.append limit line).document.results.map Line.source =
      lines (unlines (pad.buffer ++ [line])) := by
    rw [happend]
    exact map_source_runLinesWithin _ _ _
  rw [hsources, lines_unlines hne, List.flatMap_append, List.flatMap_singleton]
  exact List.suffix_append _ _

theorem respond_of_opens_eq_false {typed : String}
    (h : Command.opens (Session.normalize typed) = false) (machine : Machine) (pad : Notepad) :
    Session.respond machine pad typed =
      Session.enter machine.evaluationLimit pad (Session.normalize typed) := by
  rw [Session.respond, Command.ofLine?_eq, h]
  rfl

/-- A line is a command exactly if its first character that is not blank is a slash, and read as a
line of the document it is at fault at that slash, before anything else. So a line that is read
without faults is no command, whatever blanks and line feeds stand in front of it: handling it
writes nothing and leaves the notepad alone. Typed with such a text, or with one that is stored as
such a text, a line is put into the document. -/
theorem commands_hide_no_line (machine : Machine) (line : String) (pad : Notepad) :
    ((Command.handle machine line pad).1 = true ↔ Command.opens line = true) ∧
      (Command.opens line = true → ∃ more,
        (parse (tokens line)).faults = ⟨.expectedExpression, some (slashToken line)⟩ :: more) ∧
      ((parse (tokens line)).faults = [] →
        Command.handle machine line pad = (false, .ofOutputs [], pad) ∧
        ∀ typed : String, typed = line ∨ Session.normalize typed = line →
          let stored := Session.normalize typed
          Session.respond machine pad typed = Session.enter machine.evaluationLimit pad stored ∧
            pad.Adds stored (Session.respond machine pad typed).2) := by
  refine ⟨?_, faults_of_opens, fun h => ⟨?_, fun typed htyped => ?_⟩⟩
  · rw [Command.handle, Command.ofLine?_eq]
    cases Command.opens line <;> simp
  · rw [Command.handle, Command.ofLine?_eq, opens_of_faultless h]
    rfl
  · have hopens : Command.opens (Session.normalize typed) = false := by
      rcases htyped with rfl | rfl
      · rw [opens_normalize fun c => isWidthless_of_faultless h]
        exact opens_of_faultless h
      · exact opens_of_faultless h
    have hrespond := respond_of_opens_eq_false hopens machine pad
    exact ⟨hrespond, hrespond ▸ pad.adds_append _ _⟩

/-- Of a command behind a line feed and a tab, and of a statement behind a line feed and a no-break
space, which is not stored. -/
theorem commands_hide_no_line_indented :
    let command := "\n\t/undo"
    let typed := "\n\u00a0-x / 2"
    (Command.handle .usual command .empty).1 = true ∧
      (∃ more, (parse (tokens command)).faults =
        ⟨.expectedExpression, some ⟨.operator .dividedBy, "/", ⟨2, 2, 2⟩⟩⟩ :: more) ∧
      Command.handle .usual typed .empty = (false, .ofOutputs [], .empty) ∧
      (Session.respond .usual .empty typed).2.buffer = ["\n-x / 2"] := by
  intro command typed
  have hopens : Command.opens command = true := by decide +kernel
  have hfaultless : (parse (tokens typed)).faults = [] := by decide +kernel
  have hslash : slashToken command = ⟨.operator .dividedBy, "/", ⟨2, 2, 2⟩⟩ := by decide +kernel
  have hstored : Session.normalize typed = "\n-x / 2" := by decide +kernel
  obtain ⟨hiff, hfaults, -⟩ := commands_hide_no_line .usual command .empty
  obtain ⟨-, -, hline⟩ := commands_hide_no_line .usual typed .empty
  obtain ⟨hhandle, htyped⟩ := hline hfaultless
  have hbuffer := (htyped typed (.inl rfl)).2.buffer
  rw [hstored] at hbuffer
  exact ⟨hiff.2 hopens, hslash ▸ hfaults hopens, hhandle, hbuffer⟩

end Scratchpad
