import Scratchpad.Evaluation
import Scratchpad.Expr.Parser
import Scratchpad.Expr.Tree
import Scratchpad.Output

/-! What a program runs on: a stack that is not endless, and a printer of trees. -/
namespace Scratchpad

/-- `evaluationLimit` is how deep evaluation may nest, and `treeLimit` how deep the making of a tree
may. The printer gives nothing where it runs out of stack itself. -/
structure Machine where
  evaluationLimit : Nat
  treeLimit : Nat
  print : Tree → Option String

namespace Machine

/-- A stack of a thousand calls. The making of a tree takes one for each node, and some are open
before it begins. -/
def usual : Machine := ⟨usualLimit, 980, fun tree => some tree.layout⟩

def outline (machine : Machine) (statements : List Expr) : Option String :=
  (treeOf machine.treeLimit statements).bind machine.print

/-- What is written for the outline of a text: the diagnostics of reading it come first. -/
def outlineText (machine : Machine) (source : String) : Written :=
  let program := parse (tokens source)
  let read := program.faults.map .diagnostic
  match machine.outline program.statements with
  | some outline => ⟨read ++ [.text outline], none⟩
  | none => ⟨read, some .stack⟩

theorem failure_outlineText (machine : Machine) (source : String) :
    (machine.outlineText source).failure =
      if (machine.outline (parse (tokens source)).statements).isNone then some .stack
      else none := by
  rw [outlineText]
  cases machine.outline (parse (tokens source)).statements <;> rfl

end Machine
end Scratchpad
