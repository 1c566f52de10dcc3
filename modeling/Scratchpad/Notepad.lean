import Scratchpad.Document
import Scratchpad.Output

/-! Notepads: a buffer of lines, run as one document after every change. -/
namespace Scratchpad

structure Notepad where
  buffer : List String
  document : Document

namespace Notepad

def empty : Notepad := ⟨[], .new .empty⟩

/-- Run the buffer. An empty buffer is a document without a text. -/
def refresh (limit : Nat) (pad : Notepad) : Notepad :=
  if pad.buffer.isEmpty then { pad with document := .new .empty }
  else { pad with document := pad.document.update limit (unlines pad.buffer) false }

def lastDisplay (pad : Notepad) : String := pad.document.displays.getLastD ""

def diagnostics (pad : Notepad) : List Output := pad.document.faults.map .diagnostic

def append (limit : Nat) (pad : Notepad) (line : String) : Notepad :=
  refresh limit { pad with buffer := pad.buffer ++ [line] }

def undo? (limit : Nat) (pad : Notepad) : Option Notepad :=
  if pad.buffer.isEmpty then none
  else some (refresh limit { pad with buffer := pad.buffer.dropLast })

def width (pad : Notepad) : Nat := (pad.buffer.map String.length).foldl max 0

/-- A line with what is shown for it, two columns behind a given width. -/
def renderLine (width : Nat) (line : Line) : String :=
  let source := line.source.toList
  String.ofList (trimEnd
    (source ++ List.replicate (width - source.length) ' ' ++ [' ', ' '] ++ line.display.toList))

def render (pad : Notepad) : List String := pad.document.results.map (renderLine pad.width)

end Notepad
end Scratchpad
