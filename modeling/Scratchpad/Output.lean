import Scratchpad.Diagnostic

/-! What a program writes: texts on its standard output, diagnostics and complaints on its standard
error, and all of it only as far as nothing fails. -/
namespace Scratchpad

inductive Output where
  | text (written : String)
  | clearScreen
  | complaint (line : String)
  | diagnostic (d : Diagnostic)
  deriving DecidableEq

namespace Output

def line (text : String) : Output := .text (text ++ "\n")

def standardOutput (cleared : String) (outputs : List Output) : String :=
  String.join (outputs.map fun
    | .text written => written
    | .clearScreen => cleared
    | _ => "")

/-- What stands on the standard error. Diagnostics can be turned off, complaints cannot. -/
def standardError (diagnostics : Bool) (outputs : List Output) : String :=
  String.join (outputs.map fun
    | .complaint line => line ++ "\n"
    | .diagnostic d => report diagnostics [d]
    | _ => "")

end Output

/-- What nothing handles, so that a program breaks off: calls that nest too deep for the stack, a
path that cannot even be looked at, and a file that is no text. -/
inductive Failure where
  | stack
  | path (reason : String)
  | encoding (reason : String)
  deriving DecidableEq

namespace Failure

def message : Failure → String
  | stack => "maximum recursion depth exceeded"
  | path reason | encoding reason => reason

end Failure

structure Written where
  outputs : List Output
  failure : Option Failure
  deriving DecidableEq

namespace Written

def ofOutputs (outputs : List Output) : Written := ⟨outputs, none⟩

/-- What is written in turn. Nothing comes behind a failure. -/
def join : List Written → Written
  | [] => ofOutputs []
  | w :: rest =>
    match w.failure with
    | some failure => ⟨w.outputs, some failure⟩
    | none => ⟨w.outputs ++ (join rest).outputs, (join rest).failure⟩

theorem join_map_ofOutputs (all : List (List Output)) :
    join (all.map ofOutputs) = ofOutputs all.flatten := by
  induction all with
  | nil => rfl
  | cons outputs all ih => rw [List.map_cons, join, ih]; rfl

end Written
end Scratchpad
