import Scratchpad.Token

/-! Expressions, as read and as evaluated. -/
namespace Scratchpad

inductive Fault where
  | expectedExpression
  | expectedClosing
  | tooDeep
  | stated (message : String)
  deriving DecidableEq

namespace Fault

def message : Fault → String
  | expectedExpression => "expected expression"
  | expectedClosing => "expected ')' after expression"
  | tooDeep => "expression nested too deeply"
  | stated message => message

def ofMessage (message : String) : Fault :=
  ([expectedExpression, expectedClosing, tooDeep].find? fun f => f.message = message).getD
    (stated message)

@[simp] theorem message_ofMessage (message : String) : (ofMessage message).message = message := by
  simp only [ofMessage]
  cases h : [expectedExpression, expectedClosing, tooDeep].find? fun f => f.message = message with
  | none => rfl
  | some f => simpa using List.find?_some h

end Fault

/-- The values of lines. A name is a reference, resolved when it is used. -/
inductive Atom where
  | boolean (value : Bool)
  | number (value : Binary64)
  | name (name : String)
  deriving DecidableEq

namespace Atom

def text : Atom → String
  | boolean true => "true"
  | boolean false => "false"
  | number value => value.text
  | name n => n

/-- Only the boolean false is not taken for true. -/
def isTruthy : Atom → Bool
  | boolean value => value
  | _ => true

def number? : Atom → Option Binary64
  | number value => some value
  | _ => none

end Atom

/-- An operator is kept as the token that spells it; `nothing` is the absence of a value, and
`invalid` stands where no expression could begin. -/
inductive Expr where
  | nothing
  | literal (atom : Atom)
  | group (inner : Expr)
  | unary (operator : Token) (operand : Expr)
  | binary (left : Expr) (operator : Token) (right : Expr)
  | logical (left : Expr) (operator : Token) (right : Expr)
  | assign (name : String) (value : Expr)
  | invalid (token : Token) (fault : Fault)
  deriving DecidableEq

namespace Expr

def atom? : Expr → Option Atom
  | literal atom => some atom
  | _ => none

end Expr
end Scratchpad
