import Scratchpad.Expr

/-! Trees, the form in which expressions are printed, and the layout in which a printer writes a tree
down. -/
namespace Scratchpad

/-- A node has a label and parts below it. A leaf is a token: the name of its kind, and its text. -/
inductive Tree where
  | leaf (kind text : String)
  | node (label : String) (parts : List Tree)

def Token.leaf (t : Token) : Tree := .leaf t.kind.label t.lexeme

def Atom.leaf : Atom → Tree
  | boolean true => .leaf "TRUE" (boolean true).text
  | boolean false => .leaf "FALSE" (boolean false).text
  | number x => .leaf "NUMBER" (number x).text
  | name n => .leaf "IDENT" n

namespace Expr

/-- The tree of an expression, made from below. Each node takes one more call to make, and there is
no tree where the calls reach the limit. -/
def toTree : Nat → Expr → Option Tree
  | 0, _ => none
  | _ + 1, nothing => some (.node "none" [])
  | _ + 1, literal atom => some (.node "literal" [atom.leaf])
  | _ + 1, invalid t _ => some (.node "invalid" [t.leaf])
  | limit + 1, group inner => (toTree limit inner).map fun t => .node "group" [t]
  | limit + 1, unary op e => (toTree limit e).map fun t => .node "unary" [op.leaf, t]
  | limit + 1, binary a op b => do
    let left ← toTree limit a
    let right ← toTree limit b
    some (.node "binary" [left, op.leaf, right])
  | limit + 1, logical a op b => do
    let left ← toTree limit a
    let right ← toTree limit b
    some (.node "logical" [left, op.leaf, right])
  | limit + 1, assign name e =>
    (toTree limit e).map fun t => .node "variable" [.leaf "IDENT" name, t]

end Expr

def treeOf (limit : Nat) (statements : List Expr) : Option Tree :=
  (statements.mapM (Expr.toTree limit)).map (.node "statements")

/-! ## Layout -/

structure Row where
  depth : Nat
  text : String
  deriving DecidableEq

namespace Row

def line (r : Row) : String := String.ofList (List.replicate (2 * r.depth) ' ') ++ r.text ++ "\n"

end Row

namespace Tree

def loneText? : List Tree → Option String
  | [leaf _ text] => some text
  | _ => none

mutual

/-- The rows of a tree: its labels, each one step deeper than the label above it. A leaf stands
behind a tab on the row of its label where it is alone, and otherwise on a row of its own. -/
def rows (depth : Nat) : Tree → List Row
  | leaf _ text => [⟨depth, text⟩]
  | node label parts =>
    match loneText? parts with
    | some text => [⟨depth, label ++ "\t" ++ text⟩]
    | none => ⟨depth, label⟩ :: rowsOfAll (depth + 1) parts

def rowsOfAll (depth : Nat) : List Tree → List Row
  | [] => []
  | t :: ts => t.rows depth ++ rowsOfAll depth ts

end

def layout (t : Tree) : String := String.join ((t.rows 0).map Row.line)

end Tree
end Scratchpad
