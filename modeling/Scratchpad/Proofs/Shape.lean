import Scratchpad.Proofs.Grammar

/-! The shapes of expressions: which nodes may stand below which, how deep they nest, and whether
something in them could not be read. -/
namespace Scratchpad

/-- An expression stands at a layer or at a tighter one. Left operands stand at the level of their
operator or at a tighter one, right operands at a tighter one. What could not be read counts as a
primary. -/
inductive Fits : Layer → Expr → Prop where
  | assign {name : String} {e : Expr} : Fits .statement e → Fits .statement (.assign name e)
  | expression {e : Expr} : Fits (.binary .disjunction) e → Fits .statement e
  | logical {level : Level} {a b : Expr} {op : Token} :
    level.isLogical = true → level.SpelledBy op → Fits (.binary level) a →
    Fits level.operand b → Fits (.binary level) (.logical a op b)
  | binary {level : Level} {a b : Expr} {op : Token} :
    level.isLogical = false → level.SpelledBy op → Fits (.binary level) a →
    Fits level.operand b → Fits (.binary level) (.binary a op b)
  | operand {level : Level} {e : Expr} : Fits level.operand e → Fits (.binary level) e
  | unary {op : Token} {e : Expr} :
    op.kind = .operator .minus → Fits .unary e → Fits .unary (.unary op e)
  | primary {e : Expr} : Fits .primary e → Fits .unary e
  | literal {atom : Atom} : Fits .primary (.literal atom)
  | group {e : Expr} : Fits (.binary .disjunction) e → Fits .primary (.group e)
  | invalid {t : Token} {fault : Fault} : Fits .primary (.invalid t fault)

namespace Expr

/-- The greatest number of groups, signs and assignments on a way down to a leaf. -/
def nesting : Expr → Nat
  | group e | unary _ e | assign _ e => e.nesting + 1
  | binary a _ b | logical a _ b => max a.nesting b.nesting
  | _ => 0

theorem nesting_join (level : Level) (a : Expr) (op : Token) (b : Expr) :
    (level.join a op b).nesting = max a.nesting b.nesting := by
  cases level <;> rfl

def isWhole : Expr → Bool
  | nothing | invalid _ _ => false
  | literal _ => true
  | group e | unary _ e | assign _ e => e.isWhole
  | binary a _ b | logical a _ b => a.isWhole && b.isWhole

/-- A statement as the grammar builds it, without faults and within the nesting limit. -/
structure Canonical (e : Expr) : Prop where
  fits : Fits .statement e
  whole : e.isWhole = true
  shallow : e.nesting ≤ 32

end Expr
end Scratchpad
