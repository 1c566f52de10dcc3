import Scratchpad.Environment

/-! Evaluation. A value is a literal, or nothing where a name is not bound or an operation does not
apply. An assignment binds its name and is worth a reference to it. -/
namespace Scratchpad

namespace Operator

def result? : Operator → Binary64 → Binary64 → Option Atom
  | plus, x, y => some (.number (x.add y))
  | minus, x, y => some (.number (x.sub y))
  | times, x, y => some (.number (x.mul y))
  | dividedBy, x, y => some (.number (x.div y))
  | percent, x, y | mod, x, y => some (.number (x.mod y))
  | less, x, y => some (.boolean (x.lt y))
  | lessEqual, x, y => some (.boolean (x.le y))
  | greater, x, y => some (.boolean (y.lt x))
  | greaterEqual, x, y => some (.boolean (y.le x))
  | equal, x, y => some (.boolean (x.eqv y))
  | and, _, _ | or, _, _ => none

end Operator

namespace Token

def result (op : Token) (x y : Binary64) : Expr :=
  match op.kind with
  | .operator op => ((op.result? x y).map Expr.literal).getD .nothing
  | _ => .nothing

def combine (op : Token) (left right : Expr) : Expr :=
  match left.atom?.bind Atom.number?, right.atom?.bind Atom.number? with
  | some x, some y => op.result x y
  | _, _ => .nothing

def sign (op : Token) (operand : Expr) : Expr :=
  match op.kind, operand.atom?.bind Atom.number? with
  | .operator .minus, some x => .literal (.number x.neg)
  | _, _ => .nothing

/-- The value of a logical operator, where its left side decides it: `or` stops at what is true, and
any other operator at what is false. Without a value on the left there is none at all. -/
def settle (op : Token) (left : Expr) : Option Expr :=
  match left.atom? with
  | none => some .nothing
  | some atom => if decide (op.kind = .operator .or) = atom.isTruthy then some left else none

end Token

namespace Atom

def resolve (env : Environment) : Atom → Expr
  | .name n => (env.lookup n).getD .nothing
  | atom => .literal atom

end Atom

namespace Expr

def eval : Expr → Environment → Expr × Environment
  | nothing, env => (nothing, env)
  | invalid _ _, env => (nothing, env)
  | literal atom, env => (atom.resolve env, env)
  | group inner, env => inner.eval env
  | assign name e, env =>
    let v := e.eval env
    (literal (.name name), v.2.bind name v.1)
  | unary op e, env =>
    let v := e.eval env
    (op.sign v.1, v.2)
  | binary a op b, env =>
    let l := a.eval env
    let r := b.eval l.2
    (op.combine l.1 r.1, r.2)
  | logical a op b, env =>
    let l := a.eval env
    match op.settle l.1 with
    | some v => (v, l.2)
    | none => b.eval l.2

/-- Evaluation that gives up where it would nest deeper than a limit. What has been bound by then
stays bound. -/
def evalWithin : Nat → Expr → Environment → Option Expr × Environment
  | 0, _, env => (none, env)
  | _ + 1, nothing, env => (some nothing, env)
  | _ + 1, invalid _ _, env => (some nothing, env)
  | _ + 1, literal atom, env => (some (atom.resolve env), env)
  | limit + 1, group inner, env => evalWithin limit inner env
  | limit + 1, assign name e, env =>
    match evalWithin limit e env with
    | (some v, env) => (some (literal (.name name)), env.bind name v)
    | stuck => stuck
  | limit + 1, unary op e, env =>
    match evalWithin limit e env with
    | (some v, env) => (some (op.sign v), env)
    | stuck => stuck
  | limit + 1, binary a op b, env =>
    match evalWithin limit a env with
    | (some l, env) =>
      match evalWithin limit b env with
      | (some r, env) => (some (op.combine l r), env)
      | stuck => stuck
    | stuck => stuck
  | limit + 1, logical a op b, env =>
    match evalWithin limit a env with
    | (some l, env) =>
      match op.settle l with
      | some v => (some v, env)
      | none => evalWithin limit b env
    | stuck => stuck

end Expr

/-- How deep evaluation may nest on a stack of a thousand calls, of which it takes three for each
node. -/
def usualLimit : Nat := 330

end Scratchpad
