import Scratchpad.Expr
import Scratchpad.Text.Character

/-! Diagnostics: a fault and, where there is one, the token at which it shows. -/
namespace Scratchpad

structure Diagnostic where
  fault : Fault
  token : Option Token
  deriving DecidableEq

namespace Diagnostic

def describe (d : Diagnostic) : String :=
  match d.token with
  | none => s!"error: {d.fault.message}"
  | some t =>
    let found := if t.kind = .endOfInput then "end of input" else t.lexeme
    s!"error at {t.position.line}:{t.position.column} near '{found}': {d.fault.message}"

def summary (d : Diagnostic) : String :=
  match d.token with
  | none => d.fault.message
  | some t => s!"{d.fault.message} at line {t.position.line}, col {t.position.column}"

/-- Whether a setting leaves diagnostics on. Without a setting they are on. -/
def enabled : Option String → Bool
  | none => true
  | some setting =>
    let word := (trim setting.toList).map Char.toLower
    word ∉ ["0", "off", "false", "no"].map String.toList

end Diagnostic

def report (enabled : Bool) (diagnostics : List Diagnostic) : String :=
  if enabled then String.join (diagnostics.map fun d => d.describe ++ "\n") else ""

end Scratchpad
