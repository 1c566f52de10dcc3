import Scratchpad.Text.Lines
import Scratchpad.Token.Lexer

/-! Styles of the pieces of a line. -/
namespace Scratchpad

inductive Style where
  | plain | keyword | boolean | number | error
  deriving DecidableEq

namespace Style

def name : Style → String
  | plain => ""
  | keyword => "bold ansicyan"
  | boolean => "ansicyan"
  | number => "ansimagenta"
  | error => "bold ansired"

end Style

structure Fragment where
  style : Style
  text : String
  deriving DecidableEq

namespace Kind

def style : Kind → Style
  | number _ => .number
  | boolean _ => .boolean
  | operator .and | operator .or => .keyword
  | invalid => .error
  | _ => .plain

end Kind

namespace Token

def isLettered (t : Token) : Bool := !t.lexeme.isEmpty && t.lexeme.toList.all isLetter

/-- Tokens in letters are keywords, unless they are names or booleans. -/
def style (t : Token) : Style :=
  match t.kind with
  | .blank => .plain
  | .identifier _ | .boolean _ => t.kind.style
  | kind => if t.isLettered then .keyword else kind.style

end Token

def highlight (line : String) : List Fragment :=
  let shown := (allTokens line).filter fun t => t.kind ≠ .endOfInput ∧ t.kind ≠ .newline
  if shown.isEmpty then [⟨.plain, line⟩] else shown.map fun t => ⟨t.style, t.lexeme⟩

/-- The pieces of a line of a text, counted from zero; past the end, an empty piece. -/
def highlightAt (text : String) (line : Nat) : List Fragment :=
  ((lines text)[line]?.map highlight).getD [⟨.plain, ""⟩]

structure Highlighter where
  lines : List String
  known : List (Nat × List Fragment)

namespace Highlighter

def ofText (text : String) : Highlighter := ⟨Scratchpad.lines text, []⟩

/-- The pieces of a line, counted from zero. A line is highlighted when it is asked for the first
time, and its pieces are kept. -/
def ask (h : Highlighter) (line : Nat) : List Fragment × Highlighter :=
  match h.known.lookup line with
  | some pieces => (pieces, h)
  | none =>
    let pieces := (h.lines[line]?.map highlight).getD [⟨.plain, ""⟩]
    (pieces, { h with known := (line, pieces) :: h.known })

def askAll (h : Highlighter) : List Nat → List (List Fragment)
  | [] => []
  | line :: more => (h.ask line).1 :: (h.ask line).2.askAll more

end Highlighter
end Scratchpad
