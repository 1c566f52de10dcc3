import Scratchpad.Evaluation

/-! The text shown for a value, and the texts that show expressions and environments in full, field by
field. -/
namespace Scratchpad

namespace Expr

/-- Names are followed to what they are bound to. A name that has been followed is forgotten, so a
chain of names that runs in a circle ends, and shows nothing. -/
def display (value : Expr) (env : Environment) : String :=
  match value with
  | literal (.name n) =>
    match _ : env.lookup n with
    | some value => value.display (env.erase n)
    | none => ""
  | literal atom => atom.text
  | _ => ""
termination_by env.size
decreasing_by exact Environment.size_erase_lt (by assumption)

theorem display_of_lookup_eq_some {env : Environment} {n : String} {v : Expr}
    (h : env.lookup n = some v) : (literal (.name n)).display env = v.display (env.erase n) := by
  rw [display]
  split
  · next v' h' =>
    obtain rfl : v' = v := Option.some.inj (h'.symm.trans h)
    rfl
  · next h' => simp [h] at h'

theorem display_of_lookup_eq_none {env : Environment} {n : String} (h : env.lookup n = none) :
    (literal (.name n)).display env = "" := by
  rw [display]
  split
  · next v h' => simp [h] at h'
  · rfl

theorem display_congr {v : Expr} (h : ∀ n, v ≠ literal (.name n)) (env other : Environment) :
    v.display env = v.display other := by
  cases v with
  | literal atom =>
    cases atom with
    | name n => exact absurd rfl (h n)
    | boolean | number => rw [display, display] <;> simp
  | _ => rw [display, display] <;> simp

theorem display_eq_empty_or_text (v : Expr) (env : Environment) :
    v.display env = "" ∨ ∃ atom : Atom, (∀ n, atom ≠ .name n) ∧ v.display env = atom.text := by
  fun_induction display v env with
  | case1 env n w hw ih => exact ih
  | case2 => exact .inl rfl
  | case3 env atom hatom => exact .inr ⟨atom, hatom, rfl⟩
  | case4 => exact .inl rfl

def inspect : Expr → String
  | nothing => "NoneExpr()"
  | literal atom => s!"Literal(atom={atom.text})"
  | group inner => s!"Group(inner={inner.inspect})"
  | unary op e => s!"Unary(operand={e.inspect}, operator={op.inspect})"
  | binary a op b => s!"Binary(left={a.inspect}, right={b.inspect}, operator={op.inspect})"
  | logical a op b => s!"Logical(left={a.inspect}, right={b.inspect}, operator={op.inspect})"
  | assign name e => s!"Variable(name={quoted name}, value={e.inspect})"
  | invalid t fault => s!"Invalid(token={t.inspect}, message={quoted fault.message})"

end Expr

namespace Environment

def listing (env : Environment) : List String :=
  env.bindings.map fun b => s!"{b.1}: {b.2.display env}"

def inspect (env : Environment) : String :=
  let fields := env.bindings.map fun b => s!"{quoted b.1}: {b.2.inspect}"
  "Environment(\x7b" ++ ", ".intercalate fields ++ "\x7d)"

end Environment
end Scratchpad
