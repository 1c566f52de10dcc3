import Scratchpad.Line

/-! Documents: a text, what its lines are worth, and the environment in which they start. -/
namespace Scratchpad

/-- `before` is the environment of the first line, `after` that behind the last one. -/
structure Document where
  before : Environment
  text : String
  results : List Line
  after : Environment

namespace Document

def new (env : Environment) : Document := ⟨env, "", [], env⟩

/-- Run a text as the whole document. What it binds is kept for later texts only on demand. -/
def update (limit : Nat) (doc : Document) (text : String) (persist : Bool) : Document :=
  let run := runTextWithin limit text doc.before
  ⟨if persist then run.2 else doc.before, text, run.1, run.2⟩

def displays (doc : Document) : List String := doc.results.map Line.display

def faults (doc : Document) : List Diagnostic := doc.results.flatMap Line.faults

def runLine (limit : Nat) (doc : Document) (source : String) : Line × Document :=
  let run := runLineWithin limit source doc.before
  (run.1, { doc with before := run.2 })

end Document
end Scratchpad
