import Scratchpad.Command

/-! Sessions at a notepad: prompts, and what is written between them. -/
namespace Scratchpad

inductive Input where
  | line (text : String)
  | interrupt
  | finish
  deriving DecidableEq

namespace Session

/-- Characters that a typed line is freed of: those without width, no-break spaces and carriage
returns. -/
def isStray (c : Char) : Bool :=
  ['\u200b', '\u200c', '\u200d', '\ufeff', '\u00a0', '\r'].contains c

def normalize (text : String) : String := String.ofList (text.toList.filter fun c => !isStray c)

def greeting : String := "countpad notepad (Ctrl-D to exit, / for commands)"

/-- The number of the line that is asked for, at least three columns wide. -/
def prompt (pad : Notepad) : String :=
  String.ofList (List.leftpad 3 ' ' (Nat.toDigits 10 (pad.buffer.length + 1))) ++ " │ "

def enter (limit : Nat) (pad : Notepad) (text : String) : Written × Notepad :=
  let pad := pad.append limit text
  let shown := pad.lastDisplay
  (.ofOutputs (pad.diagnostics ++ if shown.isEmpty then [] else [.line s!"    = {shown}"]), pad)

def respond (machine : Machine) (pad : Notepad) (text : String) : Written × Notepad :=
  match Command.ofLine? (normalize text) with
  | some command => command.run machine pad
  | none => enter machine.evaluationLimit pad (normalize text)

/-- What is written in front of a prompt. Behind the last one there is no prompt. -/
structure Screen where
  outputs : List Output
  prompt : Option String
  deriving DecidableEq

/-- The screens of a session, up to the failure where there is one. -/
structure Transcript where
  screens : List Screen
  failure : Option Failure
  deriving DecidableEq

namespace Transcript

def behind (t : Transcript) (first : Screen) : Transcript :=
  { t with screens := first :: t.screens }

end Transcript

/-- A session from a notepad on. `pending` is what is written in front of the next prompt. The
session ends when the user finishes, at the latest behind the last input, or when a command fails. -/
def run (machine : Machine) (pad : Notepad) (pending : List Output) : List Input → Transcript
  | .line text :: inputs =>
    let answer := respond machine pad text
    match answer.1.failure with
    | some failure => ⟨[⟨pending, some (prompt pad)⟩, ⟨answer.1.outputs, none⟩], some failure⟩
    | none => (run machine answer.2 answer.1.outputs inputs).behind ⟨pending, some (prompt pad)⟩
  | .interrupt :: inputs =>
    (run machine pad [.line "KeyboardInterrupt"] inputs).behind ⟨pending, some (prompt pad)⟩
  | .finish :: _ | [] => ⟨[⟨pending, some (prompt pad)⟩, ⟨[.line ""], none⟩], none⟩

def transcript (machine : Machine) (inputs : List Input) : Transcript :=
  run machine .empty [.line greeting] inputs

end Session
end Scratchpad
