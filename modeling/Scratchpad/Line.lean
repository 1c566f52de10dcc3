import Scratchpad.Display
import Scratchpad.Expr.Parser
import Scratchpad.Text.Lines

/-! Lines: read, evaluated and shown. -/
namespace Scratchpad

structure Line where
  source : String
  value : Expr
  display : String
  faults : List Diagnostic
  deriving DecidableEq

namespace Line

def ok (line : Line) : Bool := line.faults.isEmpty

end Line

/-- The value of the last of some statements, evaluated one after the other up to the first that
nests too deep. `last` is the value so far. -/
def evalAll (limit : Nat) : List Expr → Expr → Environment → Option Expr × Environment
  | [], last, env => (some last, env)
  | s :: rest, _, env =>
    match s.evalWithin limit env with
    | (some value, env) => evalAll limit rest value env
    | stuck => stuck

theorem evalAll_last (limit : Nat) (statements : List Expr) (last other : Expr)
    (env : Environment) :
    (evalAll limit statements last env).1.isSome = (evalAll limit statements other env).1.isSome ∧
      (evalAll limit statements last env).2 = (evalAll limit statements other env).2 := by
  cases statements <;> exact ⟨rfl, rfl⟩

theorem evalAll_append_of_eq_some {limit : Nat} {front : List Expr} {last v : Expr}
    {env env' : Environment} (h : evalAll limit front last env = (some v, env'))
    (back : List Expr) : evalAll limit (front ++ back) last env = evalAll limit back v env' := by
  induction front generalizing last env with
  | nil =>
    obtain ⟨hv, rfl⟩ := Prod.mk.inj h
    rw [List.nil_append, Option.some.inj hv]
  | cons s front ih =>
    rw [evalAll] at h
    rw [List.cons_append, evalAll]
    rcases hs : s.evalWithin limit env with ⟨_ | w, env₁⟩ <;> rw [hs] at h
    · cases h
    · exact ih h

theorem evalAll_append_of_eq_none {limit : Nat} {front : List Expr} {last : Expr}
    {env env' : Environment} (h : evalAll limit front last env = (none, env'))
    (back : List Expr) : evalAll limit (front ++ back) last env = (none, env') := by
  induction front generalizing last env with
  | nil => cases h
  | cons s front ih =>
    rw [evalAll] at h
    rw [List.cons_append, evalAll]
    rcases hs : s.evalWithin limit env with ⟨_ | w, env₁⟩ <;> rw [hs] at h
    · exact h
    · exact ih h

/-- Run a line with a limit on how deep evaluation nests. Beyond the limit there is no value, and
one more diagnostic. -/
def runLineWithin (limit : Nat) (source : String) (env : Environment) : Line × Environment :=
  let program := parse (tokens source)
  match evalAll limit program.statements .nothing env with
  | (some value, env) => (⟨source, value, value.display env, program.faults⟩, env)
  | (none, env) => (⟨source, .nothing, "", program.faults ++ [⟨.tooDeep, none⟩]⟩, env)

section
variable {limit : Nat} {source : String} {e : Expr} {env env' : Environment}

theorem runLineWithin_of_parse (he : parse (tokens source) = ⟨[e], []⟩) {v : Expr}
    (hv : e.evalWithin limit env = (some v, env')) :
    runLineWithin limit source env = (⟨source, v, v.display env', []⟩, env') := by
  simp only [runLineWithin, he, evalAll, hv]

theorem tooDeep_mem_of_parse (he : parse (tokens source) = ⟨[e], []⟩)
    (hv : e.evalWithin limit env = (none, env')) :
    ⟨.tooDeep, none⟩ ∈ (runLineWithin limit source env).1.faults := by
  simp only [runLineWithin, he, evalAll, hv, List.nil_append, List.mem_singleton]

end

theorem faults_runLineWithin (limit : Nat) (source : String) (env : Environment) :
    ∃ more, (runLineWithin limit source env).1.faults = (parse (tokens source)).faults ++ more := by
  rw [runLineWithin]
  split
  · exact ⟨[], (List.append_nil _).symm⟩
  · exact ⟨_, rfl⟩

@[simp] theorem source_runLineWithin (limit : Nat) (source : String) (env : Environment) :
    (runLineWithin limit source env).1.source = source := by
  rw [runLineWithin]
  split <;> rfl

def runLinesWithin (limit : Nat) : List String → Environment → List Line × Environment
  | [], env => ([], env)
  | source :: rest, env =>
    let first := runLineWithin limit source env
    let more := runLinesWithin limit rest first.2
    (first.1 :: more.1, more.2)

@[simp] theorem length_runLinesWithin (limit : Nat) (sources : List String) (env : Environment) :
    (runLinesWithin limit sources env).1.length = sources.length := by
  induction sources generalizing env with
  | nil => rfl
  | cons source rest ih => simp [runLinesWithin, ih]

@[simp] theorem map_source_runLinesWithin (limit : Nat) (sources : List String)
    (env : Environment) : (runLinesWithin limit sources env).1.map Line.source = sources := by
  induction sources generalizing env with
  | nil => rfl
  | cons source rest ih => simp [runLinesWithin, ih]

theorem runLinesWithin_append (limit : Nat) (a b : List String) (env : Environment) :
    runLinesWithin limit (a ++ b) env =
      ((runLinesWithin limit a env).1 ++
        (runLinesWithin limit b (runLinesWithin limit a env).2).1,
        (runLinesWithin limit b (runLinesWithin limit a env).2).2) := by
  induction a generalizing env with
  | nil => rfl
  | cons source rest ih => simp [runLinesWithin, ih]

def runTextWithin (limit : Nat) (text : String) (env : Environment) : List Line × Environment :=
  runLinesWithin limit (lines text) env

end Scratchpad
