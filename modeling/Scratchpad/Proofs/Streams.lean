import Scratchpad.CommandLine

/-! Diagnostics on two streams. A scribe is a reader that records each fault where it is met, and
writes its line to the standard error at once if diagnostics are on. What is written by the end of a
document is the report of what has been recorded of its lines, and nothing else depends on whether
it is written. -/
namespace Scratchpad

/-! ## Reports -/

@[simp] theorem report_nil (enabled : Bool) : report enabled [] = "" := by
  cases enabled <;> rfl

@[simp] theorem report_append (enabled : Bool) (ds more : List Diagnostic) :
    report enabled (ds ++ more) = report enabled ds ++ report enabled more := by
  cases enabled <;> simp [report]

theorem standardError_diagnostics (enabled : Bool) (ds : List Diagnostic) :
    Output.standardError enabled (ds.map .diagnostic) = report enabled ds := by
  induction ds with
  | nil => exact (report_nil enabled).symm
  | cons d ds ih =>
    rw [← List.singleton_append, report_append, ← ih]
    simp [Output.standardError]

/-! ## Streams -/

/-- The faults recorded of a line so far, and what stands on the standard error. -/
structure Streams where
  recorded : List Diagnostic
  written : String

namespace Streams
variable (setting : Option String)

def note (d : Diagnostic) (s : Streams) : Streams where
  recorded := s.recorded ++ [d]
  written := if Diagnostic.enabled setting then s.written ++ (d.describe ++ "\n") else s.written

def noteAll (ds : List Diagnostic) (s : Streams) : Streams :=
  ds.foldl (fun s d => s.note setting d) s

theorem noteAll_append (ds more : List Diagnostic) (s : Streams) :
    s.noteAll setting (ds ++ more) = (s.noteAll setting ds).noteAll setting more :=
  List.foldl_append

theorem note_eq (d : Diagnostic) (s : Streams) :
    s.note setting d =
      ⟨s.recorded ++ [d], s.written ++ report (Diagnostic.enabled setting) [d]⟩ := by
  rw [note]
  cases Diagnostic.enabled setting <;> simp [report]

/-- Noting keeps the streams in step. -/
theorem noteAll_eq (ds : List Diagnostic) (s : Streams) :
    s.noteAll setting ds =
      ⟨s.recorded ++ ds, s.written ++ report (Diagnostic.enabled setting) ds⟩ := by
  induction ds generalizing s with
  | nil => simp [noteAll]
  | cons d ds ih =>
    change (s.note setting d).noteAll setting ds = _
    rw [ih, note_eq, List.append_assoc, String.append_assoc, ← report_append,
      List.singleton_append]

end Streams

/-! ## Scribes -/

def Parsed.noted (setting : Option String) (p : Parsed) : StateM Streams (Expr × List Token) :=
  fun s => ((p.value, p.rest), s.noteAll setting p.faults)

/-- A reader that can also note faults as it meets them, instead of returning them. -/
structure Scribe (setting : Option String) extends Reader where
  scan : List Token → StateM Streams (Expr × List Token)
  scan_eq : ∀ ts, scan ts = (read ts).noted setting

namespace Scribe
variable {setting : Option String}

variable (setting) in
def note (d : Diagnostic) : StateM Streams Unit := modify (Streams.note setting d)

variable (setting) in
def refuse (token : Token) (fault : Fault) (rest : List Token) :
    StateM Streams (Expr × List Token) := do
  note setting ⟨fault, some token⟩
  pure (.invalid token fault, rest)

variable (setting) in
def tooDeep (token : Token) (rest : List Token) : StateM Streams (Expr × List Token) := do
  note setting ⟨.tooDeep, some token⟩
  pure (.invalid token .tooDeep, skipNested (if token.kind = .openParen then 1 else 0) rest)

variable (setting) in
/-- The group around a value, up to the newline behind its closing parenthesis. Where there is no
such parenthesis, that is noted. -/
def close (stop : Token) (value : Expr) : List Token → StateM Streams (Expr × List Token)
  | [] => do
    note setting ⟨.expectedClosing, some stop⟩
    pure (.group value, [])
  | t :: ts =>
    if t.kind = .closeParen then pure (.group value, skipNewline ts)
    else do
      note setting ⟨.expectedClosing, some t⟩
      pure (.group value, skipNewline (t :: ts))

theorem refuse_eq (token : Token) (fault : Fault) (rest : List Token) :
    refuse setting token fault rest = (Parsed.refuse token fault rest).noted setting := rfl

theorem tooDeep_eq (token : Token) (rest : List Token) :
    tooDeep setting token rest = (Parsed.tooDeep token rest).noted setting := rfl

theorem close_eq (stop : Token) (p : Parsed) (s : Streams) :
    close setting stop p.value p.rest (s.noteAll setting p.faults) =
      (p.close stop).endLine.noted setting s := by
  rw [Parsed.close]
  split
  · next h =>
    rw [h, close]
    simp only [Parsed.noted, Parsed.endLine, Streams.noteAll_append]
    rfl
  · next t ts h =>
    rw [h, close]
    split
    · rfl
    · simp only [Parsed.noted, Parsed.endLine, Streams.noteAll_append]
      rfl

/-! ### Chains -/

theorem suffix_of_scan {operand : Scribe setting} {ts rest : List Token} {value : Expr}
    {s s' : Streams} (h : operand.scan ts s = ((value, rest), s')) : rest <:+ ts.tail := by
  have hread := operand.advances ts
  rw [operand.scan_eq, Parsed.noted] at h
  rwa [← (Prod.mk.inj (Prod.mk.inj h).1).2]

def chain (level : Level) (operand : Scribe setting) (left : Expr) (ts : List Token) :
    StateM Streams (Expr × List Token) := fun s =>
  match ts with
  | [] => ((left, []), s)
  | op :: ts =>
    if level.accepts op then
      match _ : operand.scan ts s with
      | ((right, rest), s') => chain level operand (level.join left op right) rest s'
    else ((left, op :: ts), s)
termination_by ts.length
decreasing_by exact Nat.lt_succ_of_le ((suffix_of_scan ‹_›).trans (List.tail_suffix ts)).length_le

theorem chain_eq (level : Level) (operand : Scribe setting) (left : Parsed) (s : Streams) :
    operand.chain level left.value left.rest (s.noteAll setting left.faults) =
      (level.chain operand.toReader left).noted setting s := by
  -- The chain of the reader collects what the scribe has noted already, so the induction is on it.
  fun_induction Level.chain level operand.toReader left with
  | case1 left hr =>
    rw [hr, chain]
    simp [Parsed.noted, hr]
  | case2 left op ts hr ha right ih =>
    rw [hr, chain, if_pos ha]
    split
    next value rest s' h =>
      rw [operand.scan_eq, Parsed.noted, ← Streams.noteAll_append] at h
      obtain ⟨⟨rfl, rfl⟩, rfl⟩ := by simpa only [Prod.mk.injEq] using h
      exact ih
  | case3 left op ts hr ha =>
    rw [hr, chain, if_neg ha]
    simp [Parsed.noted, hr]

def chained (level : Level) (operand : Scribe setting) : Scribe setting where
  toReader := level.chained operand.toReader
  scan ts := do
    let (left, rest) ← operand.scan ts
    operand.chain level left rest
  scan_eq ts := by
    funext s
    rw [operand.scan_eq, Level.read_chained]
    exact operand.chain_eq level (operand.read ts) s

def ladder (levels : List Level) (operand : Scribe setting) : Scribe setting :=
  levels.foldr chained operand

@[simp] theorem toReader_ladder (levels : List Level) (operand : Scribe setting) :
    (ladder levels operand).toReader = Scratchpad.ladder levels operand.toReader := by
  induction levels with
  | nil => rfl
  | cons level levels ih => exact congrArg (Level.chained level) ih

/-! ### Operands -/

variable (stop : Token)

def primary (inner : Option (Scribe setting)) : Scribe setting where
  toReader := Scratchpad.primary stop (inner.map toReader)
  scan
    | [] => refuse setting stop .expectedExpression []
    | t :: ts =>
      match t.kind with
      | .boolean value => pure (.literal (.boolean value), skipNewline ts)
      | .number value => pure (.literal (.number value), skipNewline ts)
      | .identifier name => pure (.literal (.name name), skipNewline ts)
      | .openParen =>
        match inner with
        | none => tooDeep setting t ts
        | some inner => do
          let (value, rest) ← inner.scan ts
          close setting stop value rest
      | _ => refuse setting t .expectedExpression ts
  scan_eq ts := by
    cases ts with
    | nil => exact refuse_eq stop .expectedExpression []
    | cons t ts =>
      dsimp only [Scratchpad.primary]
      cases t.kind with
      | openParen =>
        cases inner with
        | none => exact tooDeep_eq t ts
        | some inner =>
          funext s
          simp only [inner.scan_eq, Option.map_some]
          exact close_eq stop (inner.read ts) s
      | _ => rfl

theorem scan_primary (inner : Option (Scribe setting)) (ts : List Token) :
    (primary stop inner).scan ts =
      ((Scratchpad.primary stop (inner.map toReader)).read ts).noted setting :=
  (primary stop inner).scan_eq ts

def signed (nested : Option (Scribe setting)) : Scribe setting where
  toReader := Scratchpad.signed stop (nested.map toReader)
  scan
    | t :: ts =>
      if t.kind = .operator .minus then
        match nested with
        | none => tooDeep setting t ts
        | some nested => do
          let (value, rest) ← nested.scan ts
          pure (.unary t value, rest)
      else (primary stop (nested.map (ladder Level.all))).scan (t :: ts)
    | [] => (primary stop (nested.map (ladder Level.all))).scan []
  scan_eq ts := by
    have hinner : (nested.map (ladder Level.all)).map toReader =
        (nested.map toReader).map (Scratchpad.ladder Level.all) := by
      cases nested <;> simp
    cases ts with
    | nil =>
      dsimp only [Scratchpad.signed]
      rw [scan_primary, hinner]
    | cons t ts =>
      dsimp only [Scratchpad.signed]
      split
      · cases nested with
        | none => exact tooDeep_eq t ts
        | some nested =>
          funext s
          simp only [nested.scan_eq]
          rfl
      · rw [scan_primary, hinner]

def unary : Nat → Scribe setting
  | 0 => signed stop none
  | depth + 1 => signed stop (some (unary depth))

theorem toReader_unary (depth : Nat) :
    (unary stop depth : Scribe setting).toReader = Scratchpad.unary stop depth := by
  induction depth with
  | zero => rfl
  | succ depth ih => exact congrArg (Scratchpad.signed stop ∘ some) ih

def expression (depth : Nat) : Scribe setting := ladder Level.all (unary stop depth)

theorem toReader_expression (depth : Nat) :
    (expression stop depth : Scribe setting).toReader = Scratchpad.expression stop depth := by
  rw [expression, toReader_ladder, toReader_unary, Scratchpad.expression]

/-! ### Statements -/

def assignable (nested : Option (Scribe setting)) (expression : Scribe setting) :
    Scribe setting where
  toReader := Scratchpad.assignable (nested.map toReader) expression.toReader
  scan
    | t :: colon :: ts =>
      match t.kind, colon.kind with
      | .identifier name, .colon =>
        match nested with
        | none => tooDeep setting t (colon :: ts)
        | some nested => do
          let (value, rest) ← nested.scan ts
          pure (.assign name value, skipNewline rest)
      | _, _ => expression.scan (t :: colon :: ts)
    | ts => expression.scan ts
  scan_eq ts := by
    match ts with
    | [] => exact expression.scan_eq []
    | [t] => exact expression.scan_eq [t]
    | t :: colon :: ts =>
      dsimp only [Scratchpad.assignable]
      cases t.kind with
      | identifier name =>
        cases colon.kind with
        | colon =>
          cases nested with
          | none => exact tooDeep_eq t (colon :: ts)
          | some nested =>
            funext s
            simp only [nested.scan_eq]
            rfl
        | _ => exact expression.scan_eq _
      | _ => exact expression.scan_eq _

def statement : Nat → Scribe setting
  | 0 => assignable none (expression stop 0)
  | depth + 1 => assignable (some (statement depth)) (expression stop (depth + 1))

theorem toReader_statement (depth : Nat) :
    (statement stop depth : Scribe setting).toReader = Scratchpad.statement stop depth := by
  induction depth with
  | zero => exact congrArg (Scratchpad.assignable none) (toReader_expression stop 0)
  | succ depth ih =>
    change Scratchpad.assignable (some (statement stop depth).toReader) _ = _
    rw [ih, toReader_expression, Scratchpad.statement]

variable (setting) in
def statements (ts : List Token) : StateM Streams (List Expr) := fun s =>
  match ts with
  | [] => ([], s)
  | t :: ts =>
    if t.kind = .newline then statements ts s
    else
      match _ : (statement stop maxNesting : Scribe setting).scan (t :: ts) s with
      | ((value, rest), s') =>
        let (more, s'') := statements rest s'
        (value :: more, s'')
termination_by ts.length
decreasing_by
  · exact Nat.lt_succ_self ts.length
  · exact Nat.lt_succ_of_le (suffix_of_scan ‹_›).length_le

theorem statements_eq (ts : List Token) (s : Streams) :
    statements setting stop ts s =
      ((Scratchpad.statements stop ts).statements,
        s.noteAll setting (Scratchpad.statements stop ts).faults) := by
  fun_induction Scratchpad.statements stop ts generalizing s with
  | case1 => rw [statements]; rfl
  | case2 t ts ht ih => rw [statements, if_pos ht, ih]
  | case3 t ts ht first more ih =>
    rw [statements, if_neg ht]
    split
    next value rest s' h =>
      rw [(statement _ _).scan_eq, toReader_statement, Parsed.noted] at h
      obtain ⟨⟨rfl, rfl⟩, rfl⟩ := by simpa only [Prod.mk.injEq] using h
      rw [ih, Streams.noteAll_append]

/-! ### Lines -/

variable {limit : Nat}

variable (setting limit) in
/-- Run a line. Its faults are those recorded while it is read, and one more where its evaluation
nests too deep. -/
def runLine (source : String) (env : Environment) : StateM String (Line × Environment) :=
  fun written =>
  let feed := feed (tokens source)
  let (program, s) := statements setting feed.stop feed.ahead ⟨[], written⟩
  match evalAll limit program .nothing env with
  | (some value, env) => ((⟨source, value, value.display env, s.recorded⟩, env), s.written)
  | (none, env) =>
    let s := s.note setting ⟨.tooDeep, none⟩
    ((⟨source, .nothing, "", s.recorded⟩, env), s.written)

variable (setting limit) in
def runLines : List String → Environment → StateM String (List Line × Environment)
  | [], env => pure ([], env)
  | source :: rest, env => do
    let (line, env) ← runLine setting limit source env
    let (more, env) ← runLines rest env
    pure (line :: more, env)

variable (setting limit) in
def runText (text : String) (env : Environment) : StateM String (List Line × Environment) :=
  runLines setting limit (lines text) env

theorem runLine_eq (source : String) (env : Environment) (written : String) :
    runLine setting limit source env written =
      (runLineWithin limit source env,
        written ++
          report (Diagnostic.enabled setting) (runLineWithin limit source env).1.faults) := by
  simp only [runLine, statements_eq, Streams.noteAll_eq, List.nil_append, runLineWithin,
    parse]
  generalize evalAll limit _ .nothing env = outcome
  rcases outcome with ⟨_ | value, after⟩
  · simp only [Streams.note_eq, report_append, String.append_assoc]
  · rfl

theorem runLines_eq (sources : List String) (env : Environment) (written : String) :
    runLines setting limit sources env written =
      (runLinesWithin limit sources env,
        written ++ report (Diagnostic.enabled setting)
          ((runLinesWithin limit sources env).1.flatMap Line.faults)) := by
  induction sources generalizing env written with
  | nil =>
    rw [runLinesWithin, List.flatMap_nil, report_nil, String.append_empty]
    rfl
  | cons source rest ih =>
    calc runLines setting limit (source :: rest) env written
        = (let first := runLine setting limit source env written
          let more := runLines setting limit rest first.1.2 first.2
          ((first.1.1 :: more.1.1, more.1.2), more.2)) := rfl
      _ = _ := by
        simp only [runLine_eq, ih, runLinesWithin, List.flatMap_cons, report_append,
          String.append_assoc]

end Scribe

/-- The standard error at the end of a document holds the report of the faults of its lines, in the
order of the lines, or nothing where diagnostics are off; the program writes the same. Whether they
are on changes neither the lines nor the environment behind them. -/
theorem written_runText (setting other : Option String) (limit : Nat) (text written : String)
    (env : Environment) :
    let run := Scribe.runText setting limit text env written
    run.2 = written ++
        (if Diagnostic.enabled setting then
          String.join (run.1.1.flatMap fun line => line.faults.map fun d => d.describe ++ "\n")
        else "") ∧
      run.2 = written ++ Output.standardError (Diagnostic.enabled setting)
        (((Document.new env).update limit text false).faults.map .diagnostic) ∧
      run.1 = runTextWithin limit text env ∧
      (Scribe.runText other limit text env written).1 = run.1 := by
  simp only [Scribe.runText, Scribe.runLines_eq, standardError_diagnostics]
  refine ⟨?_, rfl, rfl, trivial⟩
  rw [report, List.map_flatMap]

end Scratchpad
