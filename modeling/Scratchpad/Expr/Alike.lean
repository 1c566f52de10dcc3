import Scratchpad.Environment

/-! When two expressions, and two environments, hold the same values. Numbers are compared as
numbers, so both zeros are alike, and the order of an environment's names does not matter. -/
namespace Scratchpad

namespace Kind

def alike : Kind → Kind → Bool
  | number x, number y => x.eqv y
  | k, l => k = l

end Kind

namespace Token

def alike (s t : Token) : Bool :=
  s.kind.alike t.kind && s.lexeme = t.lexeme && s.position = t.position

end Token

namespace Atom

def alike : Atom → Atom → Bool
  | number x, number y => x.eqv y
  | a, b => a = b

end Atom

namespace Expr

def alike : Expr → Expr → Bool
  | nothing, nothing => true
  | literal a, literal b => a.alike b
  | group e, group f => e.alike f
  | unary s e, unary t f => s.alike t && e.alike f
  | binary a s b, binary c t d => a.alike c && b.alike d && s.alike t
  | logical a s b, logical c t d => a.alike c && b.alike d && s.alike t
  | assign x e, assign y f => x = y && e.alike f
  | invalid s f, invalid t g => s.alike t && f.message = g.message
  | _, _ => false

end Expr

namespace Environment

def alike (env other : Environment) : Bool :=
  env.size = other.size &&
    env.bindings.all fun b => (other.lookup b.1).any b.2.alike

end Environment
end Scratchpad
