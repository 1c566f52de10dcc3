import Scratchpad.Number.Text
import Scratchpad.Operator
import Scratchpad.Text.Quoted

/-! Tokens: what a lexeme stands for, its text, and where it begins. -/
namespace Scratchpad

inductive Kind where
  | identifier (name : String)
  | number (value : Binary64)
  | boolean (value : Bool)
  | operator (op : Operator)
  | openParen | closeParen | dot | colon
  | blank | newline | endOfInput | invalid
  deriving DecidableEq

/-- Lines and columns count from one, offsets from zero, all in characters. -/
structure Position where
  line : Nat
  column : Nat
  offset : Nat
  deriving DecidableEq

namespace Position

def start : Position := ⟨1, 1, 0⟩

def next (p : Position) (c : Char) : Position :=
  if c = '\n' then ⟨p.line + 1, 1, p.offset + 1⟩ else ⟨p.line, p.column + 1, p.offset + 1⟩

def after (p : Position) (text : List Char) : Position := text.foldl next p

@[simp] theorem after_append (p : Position) (a b : List Char) :
    p.after (a ++ b) = (p.after a).after b := List.foldl_append

@[simp] theorem offset_next (p : Position) (c : Char) : (p.next c).offset = p.offset + 1 := by
  simp only [next]; split <;> rfl

@[simp] theorem offset_after (p : Position) (text : List Char) :
    (p.after text).offset = p.offset + text.length := by
  induction text generalizing p with
  | nil => rfl
  | cons c text ih => rw [after, List.foldl_cons, ← after, ih]; simp; omega

end Position

structure Token where
  kind : Kind
  lexeme : String
  position : Position
  deriving DecidableEq

namespace Operator

def label : Operator → String
  | plus => "PLUS" | minus => "MINUS" | times => "STAR" | dividedBy => "SLASH"
  | percent => "PERCENT" | mod => "MOD"
  | equal => "EQ" | less => "LT" | lessEqual => "LTE" | greater => "GT" | greaterEqual => "GTE"
  | and => "AND" | or => "OR"

end Operator

namespace Kind

def label : Kind → String
  | identifier _ => "IDENT"
  | number _ => "NUMBER"
  | boolean true => "TRUE"
  | boolean false => "FALSE"
  | operator op => op.label
  | openParen => "LPAR"
  | closeParen => "RPAR"
  | dot => "DOT"
  | colon => "COLON"
  | blank => "WHITESPACE"
  | newline => "NEWLINE"
  | endOfInput => "EOF"
  | invalid => "INVALID"

end Kind

namespace Token

def inspect (t : Token) : String :=
  s!"Tok({t.kind.label}, {quoted t.lexeme}, {t.position.line}:{t.position.column})"

end Token
end Scratchpad
