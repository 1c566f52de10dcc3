import Scratchpad.Machine
import Scratchpad.Notepad

/-! Commands: lines that begin with a slash and are not calculated. -/
namespace Scratchpad

inductive Command where
  | clearScreen
  | reset
  | listLines
  | listNames
  | undo
  | outline (source : String)
  | unknown (word : String)
  deriving DecidableEq

namespace Command

def words : List (String × String) :=
  [("/clear", "Clear the terminal screen"),
   ("/reset", "Start a new empty document"),
   ("/show", "Print the document with each line's value"),
   ("/vars", "List variables bound by the document"),
   ("/undo", "Remove the last line"),
   ("/ast", "Print the parse tree of a line")]

def ofWord (word argument : String) : Command :=
  if word = "/clear" then clearScreen
  else if word = "/reset" then reset
  else if word = "/show" then listLines
  else if word = "/vars" then listNames
  else if word = "/undo" then undo
  else if word = "/ast" then outline argument
  else unknown word

/-- The command on a line. A line is one if its first character that is not blank is a slash. -/
def ofLine? (line : String) : Option Command :=
  let text := trim line.toList
  if text.head? = some '/' then
    some (ofWord (String.ofList (text.takeWhile fun c => !isBlank c))
      (String.ofList (trimStart (text.dropWhile fun c => !isBlank c))))
  else none

def run (machine : Machine) (command : Command) (pad : Notepad) : Written × Notepad :=
  match command with
  | clearScreen => (.ofOutputs [.clearScreen], pad)
  | reset => (.ofOutputs [.line "Document reset."], .empty)
  | listLines => (.ofOutputs (pad.render.map .line), pad)
  | listNames => (.ofOutputs (pad.document.after.listing.map .line), pad)
  | undo =>
    match pad.undo? machine.evaluationLimit with
    | some pad => (.ofOutputs pad.diagnostics, pad)
    | none => (.ofOutputs [.complaint "Nothing to undo."], pad)
  | outline source =>
    (machine.outlineText (if source.isEmpty then pad.buffer.getLastD "" else source), pad)
  | unknown word => (.ofOutputs [.complaint s!"Unknown command: {word}"], pad)

/-- Handle a line: whether there is a command on it, what is written, and the notepad behind it. A
line without a command is left alone. -/
def handle (machine : Machine) (line : String) (pad : Notepad) : Bool × Written × Notepad :=
  match ofLine? line with
  | some command => (true, command.run machine pad)
  | none => (false, .ofOutputs [], pad)

end Command

/-! ## Completions -/

structure Completion where
  word : String
  replaced : Nat
  purpose : String
  deriving DecidableEq

def completions (typed : List Char) : List Completion :=
  if typed.head? = some '/' then
    (Command.words.filter fun c => typed.isPrefixOf c.1.toList).map fun c =>
      ⟨c.1, typed.length, c.2⟩
  else []

end Scratchpad
