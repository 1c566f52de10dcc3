import Scratchpad.CommandLine
import Scratchpad.Session

/-! A notepad at a terminal. -/
namespace Scratchpad
namespace Console

def clearing : String := "\x1b[2J\x1b[H"

/-- Write what there is to write; the answer is the number with which a program ends here. -/
def write (diagnostics : Bool) (written : Written) : IO UInt32 := do
  let output ← IO.getStdout
  output.putStr (Output.standardOutput clearing written.outputs)
  output.flush
  let error ← IO.getStderr
  error.putStr (Output.standardError diagnostics written.outputs)
  match written.failure with
  | none =>
    error.flush
    pure 0
  | some failure =>
    error.putStrLn failure.message
    pure 1

partial def converse (diagnostics : Bool) (pad : Notepad) : IO UInt32 := do
  let output ← IO.getStdout
  output.putStr (Session.prompt pad)
  output.flush
  let typed ← (← IO.getStdin).getLine
  if typed.isEmpty then write diagnostics (.ofOutputs [.line ""])
  else
    let text := String.ofList (CommandLine.dropFinalNewline typed.toList)
    let answer := Session.respond .usual pad text
    let code ← write diagnostics answer.1
    if answer.1.failure.isSome then pure code else converse diagnostics answer.2

def start (diagnostics : Bool) : IO UInt32 := do
  let _ ← write diagnostics (.ofOutputs [.line Session.greeting])
  converse diagnostics .empty

end Console
end Scratchpad
