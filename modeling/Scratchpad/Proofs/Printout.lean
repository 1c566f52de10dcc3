import Scratchpad.CommandLine
import Scratchpad.Proofs.Independence
import Scratchpad.Proofs.Rows

/-! What the command line prints of a text: a row for each of its lines, and on demand a row for
each name that is bound. A row holds no line break, so the rows are the lines of what is printed. -/
namespace Scratchpad

/-! ## Lines run one after the other -/

def writesOfLines (limit : Nat) : List String → Environment → List (String × Expr)
  | [], _ => []
  | source :: rest, env =>
    Line.writes limit source env ++ writesOfLines limit rest (runLineWithin limit source env).2

theorem snd_runLinesWithin (limit : Nat) (sources : List String) (env : Environment) :
    (runLinesWithin limit sources env).2 = env.bindAll (writesOfLines limit sources env) := by
  induction sources generalizing env with
  | nil => rfl
  | cons source rest ih =>
    rw [runLinesWithin, writesOfLines, Environment.bindAll_append, ← snd_runLineWithin]
    exact ih _

theorem lineBreaks_of_mem_writesOfLines {limit : Nat} {sources : List String} {env : Environment}
    {b : String × Expr} (h : b ∈ writesOfLines limit sources env) : lineBreaks b.1 = [] := by
  induction sources generalizing env with
  | nil => simp [writesOfLines] at h
  | cons source rest ih =>
    rcases List.mem_append.1 h with h | h
    · exact lineBreaks_of_mem_writes h
    · exact ih h

/-- The names that the lines of a text bind, in the order in which they are first bound. -/
def boundNames (limit : Nat) (text : String) : List String :=
  ((writesOfLines limit (lines text) .empty).map Prod.fst).eraseDups

theorem names_runTextWithin (limit : Nat) (text : String) :
    (runTextWithin limit text .empty).2.names = boundNames limit text := by
  have hempty : Environment.empty.names = [] := rfl
  rw [runTextWithin, snd_runLinesWithin, Environment.names_bindAll, hempty, boundNames]
  simp

theorem lineBreaks_of_mem_boundNames {limit : Nat} {text name : String}
    (h : name ∈ boundNames limit text) : lineBreaks name = [] := by
  rw [boundNames, List.mem_eraseDups] at h
  obtain ⟨b, hb, rfl⟩ := List.mem_map.1 h
  exact lineBreaks_of_mem_writesOfLines hb

theorem lineBreaks_of_mem_displays {limit : Nat} {sources : List String} {env : Environment}
    {display : String} (h : display ∈ (runLinesWithin limit sources env).1.map Line.display) :
    lineBreaks display = [] :=
  lineBreaks_eq_nil (isBlank_of_mem_displays h)

def variableRow (env : Environment) (name : String) : String :=
  name ++ ": " ++ ((env.lookup name).getD .nothing).display env

theorem listing_eq (env : Environment) : env.listing = env.names.map (variableRow env) := by
  rw [Environment.listing, Environment.names, List.map_map]
  refine List.map_congr_left fun b hb => ?_
  have hlookup : env.lookup b.1 = some b.2 := Environment.mem_bindings_iff.1 hb
  rw [Function.comp_apply, variableRow, hlookup]
  rfl

/-! ## Rows on the standard output -/

namespace Output
variable (cleared : String)

theorem standardOutput_append (a b : List Output) :
    standardOutput cleared (a ++ b) = standardOutput cleared a ++ standardOutput cleared b := by
  simp [standardOutput]

theorem standardOutput_map_line (rows : List String) :
    standardOutput cleared (rows.map line) = String.join (rows.map (· ++ "\n")) := by
  rw [standardOutput, List.map_map]
  rfl

theorem standardOutput_map_diagnostic (diagnostics : List Diagnostic) :
    standardOutput cleared (diagnostics.map diagnostic) = "" := by
  induction diagnostics with
  | nil => rfl
  | cons d diagnostics ih =>
    rw [List.map_cons, ← List.singleton_append, standardOutput_append, ih]
    rfl

end Output

namespace CommandLine

/-! ## Arguments -/

def flags : List String := ["--ast", "--tokens", "--env"]

def operands (arguments : List String) : List String := arguments.filter (· ∉ flags)

/-- Whether a path leads to a file, be it one that can be read or not. -/
def Entry.isFile : Entry → Bool
  | file _ | unreadable _ | undecodable _ => true
  | noFile | inaccessible _ => false

/-- The text that a command line is about: an argument that leads to no file, the content of the
file to which it leads, where every kind of line end counts as a line feed, or the standard input. -/
inductive Supplied (arguments : List String) (input : String) (entry : String → Entry) :
    String → Prop where
  | literal {text : String} :
    operands arguments = [text] → ¬ ['-', '-'] <+: text.toList → text ≠ "-" →
    (entry (cleanPath text)).isFile = false → Supplied arguments input entry text
  | content {path content : String} :
    operands arguments = [path] → ¬ ['-', '-'] <+: path.toList → path ≠ "-" →
    entry (cleanPath path) = .file content →
    Supplied arguments input entry (String.ofList (unifyNewlines content.toList))
  | input :
    operands arguments = [] ∨ operands arguments = ["-"] → input ≠ "" →
    Supplied arguments input entry input

/-- The argument that is no flag is a path of which it cannot even be told whether it leads to a
file. -/
structure Obstructed (arguments : List String) (entry : String → Entry) (path reason : String) :
    Prop where
  operand : operands arguments = [path]
  dashes : ¬ ['-', '-'] <+: path.toList
  dash : path ≠ "-"
  reason : entry (cleanPath path) = .inaccessible reason

theorem operands_cons_of_mem {a : String} (rest : List String) (h : a ∈ flags) :
    operands (a :: rest) = operands rest := by
  simp [operands, h]

theorem operands_cons_of_notMem {a : String} (rest : List String) (h : a ∉ flags) :
    operands (a :: rest) = a :: operands rest := by
  simp [operands, h]

theorem add_of_mem_flags {a : String} (ha : a ∈ flags) (options : Options) :
    options.add a = .ok ⟨options.outline || decide ("--ast" = a),
      options.tokens || decide ("--tokens" = a), options.environment || decide ("--env" = a),
      options.source⟩ := by
  simp only [flags, List.mem_cons, List.not_mem_nil, or_false] at ha
  rcases ha with rfl | rfl | rfl <;> simp [Options.add]

theorem add_of_notMem_flags {a : String} (ha : a ∉ flags) (hdashes : ¬ ['-', '-'] <+: a.toList)
    {options : Options} (hfree : options.source = none) :
    options.add a = .ok { options with source := some a } := by
  simp only [flags, List.mem_cons, List.not_mem_nil, or_false, not_or] at ha
  rw [← List.isPrefixOf_iff_prefix] at hdashes
  simp [Options.add, ha, hdashes, hfree]

/-- The flags among the arguments are collected, and the one argument that is none is kept. -/
theorem foldlM_add {arguments : List String} (options : Options) (operand : Option String)
    (hoperands : operands arguments = operand.toList)
    (hdashes : ∀ text ∈ operand, ¬ ['-', '-'] <+: text.toList)
    (hfree : options.source = none ∨ operand = none) :
    arguments.foldlM Options.add options = .ok
      ⟨options.outline || decide ("--ast" ∈ arguments),
        options.tokens || decide ("--tokens" ∈ arguments),
        options.environment || decide ("--env" ∈ arguments), options.source.or operand⟩ := by
  induction arguments generalizing options operand with
  | nil =>
    obtain rfl : operand = none := by simpa [operands] using hoperands.symm
    show Except.ok options = _
    simp
  | cons a rest ih =>
    rw [List.foldlM_cons]
    by_cases ha : a ∈ flags
    · rw [operands_cons_of_mem rest ha] at hoperands
      rw [add_of_mem_flags ha]
      show rest.foldlM Options.add _ = _
      rw [ih _ operand hoperands hdashes]
      · simp [Bool.or_assoc]
      · exact hfree
    · rw [operands_cons_of_notMem rest ha] at hoperands
      cases operand with
      | none => simp at hoperands
      | some text =>
        obtain ⟨rfl, hrest⟩ := List.cons.inj hoperands
        have hsource := hfree.resolve_right (by simp)
        rw [add_of_notMem_flags ha (hdashes a rfl) hsource]
        show rest.foldlM Options.add _ = _
        rw [ih _ none hrest (by simp) (.inr rfl)]
        simp only [flags, List.mem_cons, List.not_mem_nil, or_false, not_or] at ha
        simp [Ne.symm ha.1, Ne.symm ha.2.1, Ne.symm ha.2.2, hsource]

theorem ofArguments_eq {arguments : List String} {operand : Option String}
    (hoperands : operands arguments = operand.toList)
    (hdashes : ∀ text ∈ operand, ¬ ['-', '-'] <+: text.toList) :
    Options.ofArguments arguments = .ok ⟨decide ("--ast" ∈ arguments),
      decide ("--tokens" ∈ arguments), decide ("--env" ∈ arguments), operand⟩ :=
  foldlM_add .none operand hoperands hdashes (.inl rfl)

theorem run_eq (machine : Machine) {arguments : List String} {options : Options}
    (hoptions : Options.ofArguments arguments = .ok options) (input : String)
    (entry : String → Entry) :
    run machine arguments input entry =
      (source options.source input entry).map (present machine options) := by
  rw [run, hoptions]
  show (do pure (present machine options (← source options.source input entry))) = _
  cases source options.source input entry <;> rfl

theorem Obstructed.run_eq {arguments : List String} {entry : String → Entry} {path reason : String}
    (h : Obstructed arguments entry path reason) (machine : Machine) (input : String) :
    run machine arguments input entry = .error (.failed (.path reason)) := by
  have hdashes : ∀ text ∈ some path, ¬ ['-', '-'] <+: text.toList := by simpa using h.dashes
  have hoptions := ofArguments_eq h.operand hdashes
  rw [CommandLine.run_eq machine hoptions]
  simp [source, readsInput, h.dash, h.reason, Except.map]

/-- Where a text is supplied, at most one argument is no flag, and it leads to the text unless
looking for a file fails. -/
theorem Supplied.exists_operand {arguments : List String} {input text : String}
    {entry : String → Entry} (h : Supplied arguments input entry text)
    (hclear : ∀ path reason, ¬ Obstructed arguments entry path reason) :
    ∃ operand : Option String, operands arguments = operand.toList ∧
      (∀ text ∈ operand, ¬ ['-', '-'] <+: text.toList) ∧ source operand input entry = .ok text := by
  cases h with
  | literal hoperands hdashes hdash hfile =>
    have hentry : entry (cleanPath text) = .noFile := by
      cases hfound : entry (cleanPath text) with
      | noFile => rfl
      | inaccessible reason => exact absurd ⟨hoperands, hdashes, hdash, hfound⟩ (hclear text reason)
      | file | unreadable | undecodable => simp [hfound, Entry.isFile] at hfile
    refine ⟨some text, hoperands, by simpa using hdashes, ?_⟩
    simp [source, readsInput, hdash, hentry]
  | @content path content hoperands hdashes hdash hfile =>
    refine ⟨some path, hoperands, by simpa using hdashes, ?_⟩
    simp [source, readsInput, hdash, hfile]
  | input hoperands hinput =>
    rcases hoperands with hoperands | hoperands
    · refine ⟨none, hoperands, by simp, ?_⟩
      simp [source, readsInput, hinput]
    · refine ⟨some "-", hoperands, by simp, ?_⟩
      simp [source, readsInput, hinput]

theorem Supplied.run_eq {arguments : List String} {input text : String} {entry : String → Entry}
    (h : Supplied arguments input entry text)
    (hclear : ∀ path reason, ¬ Obstructed arguments entry path reason) (machine : Machine) :
    ∃ operand, run machine arguments input entry =
      .ok (present machine ⟨decide ("--ast" ∈ arguments), decide ("--tokens" ∈ arguments),
        decide ("--env" ∈ arguments), operand⟩ text) := by
  obtain ⟨operand, hoperands, hdashes, hsource⟩ := h.exists_operand hclear
  refine ⟨operand, ?_⟩
  rw [CommandLine.run_eq machine (ofArguments_eq hoperands hdashes), hsource]
  rfl

/-! ## What is printed -/

theorem lineBreaks_tokenRow (line : String) : lineBreaks (tokenRow line) = [] := by
  refine lineBreaks_intercalate (by decide) fun text htext => ?_
  obtain ⟨t, -, rfl⟩ := List.mem_map.1 htext
  exact lineBreaks_inspect t

/-- The rows that are printed of a text: the tokens of its lines, or what these show, and on demand
the names that they bind. -/
def printedRows (limit : Nat) (arguments : List String) (text : String) : List String :=
  if "--tokens" ∈ arguments then (lines text).map tokenRow
  else
    let pass := runTextWithin limit text .empty
    pass.1.map Line.display ++
      if "--env" ∈ arguments then (boundNames limit text).map (variableRow pass.2) else []

theorem lineBreaks_of_mem_printedRows {limit : Nat} {arguments : List String} {text row : String}
    (h : row ∈ printedRows limit arguments text) : lineBreaks row = [] := by
  rw [printedRows] at h
  split at h
  · obtain ⟨line, -, rfl⟩ := List.mem_map.1 h
    exact lineBreaks_tokenRow line
  · rcases List.mem_append.1 h with h | h
    · exact lineBreaks_of_mem_displays h
    · split at h
      · obtain ⟨name, hname, rfl⟩ := List.mem_map.1 h
        have hcolon : lineBreaks ": " = [] := by decide
        simp [variableRow, lineBreaks_of_mem_boundNames hname, hcolon]
      · simp at h

theorem present_displays (machine : Machine) (environment : Bool) (operand : Option String)
    (text : String) :
    present machine ⟨false, false, environment, operand⟩ text =
      .ofOutputs (evaluateText machine.evaluationLimit ⟨false, false, environment, operand⟩
        (String.ofList (dropFinalNewline text.toList))) := by
  simp [present]

theorem present_tokens (machine : Machine) (environment : Bool) (operand : Option String)
    (text : String) :
    present machine ⟨false, true, environment, operand⟩ text =
      .ofOutputs
        (((lines (String.ofList (dropFinalNewline text.toList))).map tokenRow).map .line) := by
  have hline : listLine machine ⟨false, true, environment, operand⟩ =
      Written.ofOutputs ∘ fun line => [.line (tokenRow line)] := by
    funext line
    simp [listLine, Written.join, Written.ofOutputs]
  have hpresent : present machine ⟨false, true, environment, operand⟩ text =
      .join ((lines (String.ofList (dropFinalNewline text.toList))).map
        (listLine machine ⟨false, true, environment, operand⟩)) := by
    simp [present]
  rw [hpresent, hline, ← List.map_map, Written.join_map_ofOutputs, List.map_map,
    ← List.flatMap_def, ← List.map_eq_flatMap]
  rfl

theorem standardOutput_evaluateText (cleared : String) (limit : Nat) (options : Options)
    (text : String) :
    let pass := runTextWithin limit text .empty
    Output.standardOutput cleared (evaluateText limit options text) =
      String.join ((pass.1.map Line.display ++
        if options.environment then (boundNames limit text).map (variableRow pass.2)
        else []).map (· ++ "\n")) := by
  intro pass
  have hlisting : pass.2.listing = (boundNames limit text).map (variableRow pass.2) := by
    rw [listing_eq, names_runTextWithin]
  have hrows : (if options.environment then pass.2.listing.map Output.line else []) =
      (if options.environment then (boundNames limit text).map (variableRow pass.2) else []).map
        Output.line := by
    rw [hlisting]
    split <;> rfl
  have houtputs : evaluateText limit options text =
      (pass.1.flatMap Line.faults).map .diagnostic ++ (pass.1.map Line.display).map .line ++
        if options.environment then pass.2.listing.map Output.line else [] := rfl
  rw [houtputs, hrows, List.append_assoc, ← List.map_append, Output.standardOutput_append,
    Output.standardOutput_map_diagnostic, Output.standardOutput_map_line, String.empty_append]

theorem exists_present_eq (cleared : String) (machine : Machine) {arguments : List String}
    (hast : "--ast" ∉ arguments) (operand : Option String) (text : String) :
    ∃ outputs, present machine ⟨decide ("--ast" ∈ arguments), decide ("--tokens" ∈ arguments),
        decide ("--env" ∈ arguments), operand⟩ text = .ofOutputs outputs ∧
      Output.standardOutput cleared outputs =
        String.join ((printedRows machine.evaluationLimit arguments
          (String.ofList (dropFinalNewline text.toList))).map (· ++ "\n")) := by
  rw [decide_eq_false hast, printedRows]
  by_cases htokens : "--tokens" ∈ arguments
  · rw [decide_eq_true htokens, if_pos htokens, present_tokens]
    exact ⟨_, rfl, Output.standardOutput_map_line cleared _⟩
  · rw [decide_eq_false htokens, if_neg htokens, present_displays]
    refine ⟨_, rfl, ?_⟩
    rw [standardOutput_evaluateText]
    simp only [decide_eq_true_eq]

/-- Where a text is supplied and no outline of it is asked for, each of its lines has one row on the
standard output: its tokens if these are asked for, and otherwise what the line shows when the text
is run. Behind these stands, on demand, a row for each name that the text binds, in the order in
which the names are first bound. No row holds a line break, so the rows are the lines of the output;
behind the last of them it ends. Only where it cannot be told whether the argument leads to a file,
nothing is printed, and the program breaks off. -/
theorem run_aligned (machine : Machine) {arguments : List String} {input text : String}
    {entry : String → Entry} (hast : "--ast" ∉ arguments)
    (h : Supplied arguments input entry text) (cleared : String) :
    let source := String.ofList (dropFinalNewline text.toList)
    let pass := runTextWithin machine.evaluationLimit source .empty
    let names := boundNames machine.evaluationLimit source
    (∀ path reason, Obstructed arguments entry path reason →
      run machine arguments input entry = .error (.failed (.path reason))) ∧
    ((∀ path reason, ¬ Obstructed arguments entry path reason) →
      ∃ outputs rows, run machine arguments input entry = .ok (.ofOutputs outputs) ∧
        Output.standardOutput cleared outputs = String.join (rows.map (· ++ "\n")) ∧
        lines (Output.standardOutput cleared outputs) = rows ++ [""] ∧
        ("--tokens" ∈ arguments → rows = (lines source).map tokenRow) ∧
        ("--tokens" ∉ arguments → rows = pass.1.map Line.display ++
          if "--env" ∈ arguments then names.map (variableRow pass.2) else []) ∧
        pass.1.length = (lines source).length ∧ pass.2.names = names ∧
        ∀ row ∈ rows, lineBreaks row = []) := by
  intro source pass names
  refine ⟨fun path reason hobstructed => hobstructed.run_eq machine input, fun hclear => ?_⟩
  obtain ⟨operand, hrun⟩ := h.run_eq hclear machine
  obtain ⟨outputs, hpresent, hout⟩ := exists_present_eq cleared machine hast operand text
  have hbreaks : ∀ row ∈ printedRows machine.evaluationLimit arguments source,
      lineBreaks row = [] := fun row => lineBreaks_of_mem_printedRows
  have hlines := lines_join_rows hbreaks
  rw [← hout] at hlines
  rw [hpresent] at hrun
  refine ⟨outputs, printedRows machine.evaluationLimit arguments source, hrun, hout, hlines,
    fun htokens => ?_, fun htokens => ?_, length_runLinesWithin _ _ _,
    names_runTextWithin _ source, hbreaks⟩
  · rw [printedRows, if_pos htokens]
  · rw [printedRows, if_neg htokens]

theorem cleanPath_of_name {name : String} (hslash : '/' ∉ name.toList) (hne : name ≠ "")
    (hdot : name ≠ ".") : cleanPath name = name := by
  have hfirst : name.toList.takeWhile (· = '/') = [] := by
    cases hname : name.toList with
    | nil => rfl
    | cons c cs =>
      rw [hname, List.mem_cons, not_or] at hslash
      simp [Ne.symm hslash.1]
  have hkept : name.toList ≠ [] ∧ name.toList ≠ ['.'] :=
    ⟨by simpa using hne, fun h => hdot (String.toList_inj.1 h)⟩
  rw [cleanPath, List.splitOn_eq_singleton hslash, hfirst]
  simp [hkept]

/-- An empty directory of a file system that refuses names of more than 255 bytes. Of a path with
several components only the first is looked at. -/
def emptyDirectory (path : String) : Entry :=
  if 255 < (String.ofList (path.toList.takeWhile (· ≠ '/'))).utf8ByteSize then
    .inaccessible s!"[Errno 36] File name too long: {quoted path}"
  else .noFile

def rebound : String := "b: 2\na: b * 3\nb: 4\n"

/-- A name that is bound anew keeps its row. -/
theorem run_aligned_rebound :
    ("--ast" ∉ ["--env", rebound] ∧ Supplied ["--env", rebound] "" emptyDirectory rebound ∧
      ∀ path reason, ¬ Obstructed ["--env", rebound] emptyDirectory path reason) ∧
    ∃ outputs, run .usual ["--env", rebound] "" emptyDirectory = .ok (.ofOutputs outputs) ∧
      lines (Output.standardOutput "" outputs) = ["2", "6", "4", "b: 4", "a: 6", ""] := by
  have hast : "--ast" ∉ ["--env", rebound] := by decide
  have hentry : emptyDirectory (cleanPath rebound) = .noFile := by decide +kernel
  have hsupplied : Supplied ["--env", rebound] "" emptyDirectory rebound :=
    .literal (by decide) (by decide) (by decide) (by rw [hentry]; rfl)
  have hclear : ∀ path reason, ¬ Obstructed ["--env", rebound] emptyDirectory path reason := by
    intro path reason h
    have hoperands : operands ["--env", rebound] = [rebound] := by decide
    obtain rfl : rebound = path := (List.cons.inj (hoperands.symm.trans h.operand)).1
    exact absurd (hentry.symm.trans h.reason) nofun
  have htokens : "--tokens" ∉ ["--env", rebound] := by decide
  obtain ⟨outputs, rows, hrun, -, hlines, -, hrows, -⟩ :=
    (run_aligned .usual hast hsupplied "").2 hclear
  refine ⟨⟨hast, hsupplied, hclear⟩, outputs, hrun, ?_⟩
  rw [hlines, hrows htokens]
  decide +kernel

def longSum : String := String.ofList ('1' :: (List.replicate 100 [' ', '+', ' ', '1']).flatten)

theorem toList_longSum :
    longSum.toList = '1' :: (List.replicate 100 [' ', '+', ' ', '1']).flatten :=
  String.toList_ofList

/-- Its sum is not printed, since it is too long for the name of a file. -/
theorem long_sum_not_printed :
    Supplied [longSum] "" emptyDirectory longSum ∧
      run .usual [longSum] "" emptyDirectory =
        .error (.failed (.path s!"[Errno 36] File name too long: {quoted longSum}")) := by
  have hother : longSum ∉ flags ∧ longSum ≠ "-" ∧ longSum ≠ "." ∧ longSum ≠ "" := by
    simp [flags, ← String.toList_inj, toList_longSum]
  obtain ⟨hflags, hdash, hdot, hne⟩ := hother
  have hoperands : operands [longSum] = [longSum] := operands_cons_of_notMem [] hflags
  have hdashes : ¬ ['-', '-'] <+: longSum.toList := by simp [toList_longSum]
  have hslash : '/' ∉ longSum.toList := by rw [toList_longSum]; decide +kernel
  have hlong : 255 < (String.ofList (longSum.toList.takeWhile (· ≠ '/'))).utf8ByteSize := by
    rw [toList_longSum]
    decide +kernel
  have hentry : emptyDirectory (cleanPath longSum) =
      .inaccessible s!"[Errno 36] File name too long: {quoted longSum}" := by
    rw [cleanPath_of_name hslash hne hdot, emptyDirectory, if_pos hlong]
  have hfile : (emptyDirectory (cleanPath longSum)).isFile = false := by
    rw [hentry, Entry.isFile]
  have hobstructed : Obstructed [longSum] emptyDirectory longSum _ :=
    ⟨hoperands, hdashes, hdash, hentry⟩
  exact ⟨.literal hoperands hdashes hdash hfile, hobstructed.run_eq .usual ""⟩

end CommandLine
end Scratchpad
