import Scratchpad.Diagnostic

/-! Readers of expressions, and chains of binary operators. A reader takes at least the first of the
tokens in front of it, so a chain ends, and it ends behind the last operator of its level. -/
namespace Scratchpad

/-- What has been read: the expression, the faults found in it, and the tokens behind it. -/
structure Parsed where
  value : Expr
  faults : List Diagnostic
  rest : List Token

namespace Parsed

def map (f : Expr → Expr) (p : Parsed) : Parsed := { p with value := f p.value }

@[simp] theorem faults_map (f : Expr → Expr) (p : Parsed) : (p.map f).faults = p.faults := rfl
@[simp] theorem value_map (f : Expr → Expr) (p : Parsed) : (p.map f).value = f p.value := rfl
@[simp] theorem rest_map (f : Expr → Expr) (p : Parsed) : (p.map f).rest = p.rest := rfl

end Parsed

def skipNewline : List Token → List Token
  | [] => []
  | t :: ts => if t.kind = .newline then ts else t :: ts

theorem skipNewline_suffix (ts : List Token) : skipNewline ts <:+ ts := by
  cases ts with
  | nil => exact List.suffix_rfl
  | cons t ts =>
    simp only [skipNewline]
    split
    · exact List.suffix_cons t ts
    · exact List.suffix_rfl

structure Reader where
  read : List Token → Parsed
  advances : ∀ ts, (read ts).rest <:+ ts.tail

namespace Reader

theorem suffix (r : Reader) (ts : List Token) : (r.read ts).rest <:+ ts :=
  (r.advances ts).trans (List.tail_suffix ts)

theorem length_rest_le (r : Reader) (ts : List Token) : (r.read ts).rest.length ≤ ts.length :=
  (r.suffix ts).length_le

end Reader

namespace Level

def accepts (level : Level) (t : Token) : Bool :=
  match t.kind with
  | .operator op => op.level = level
  | _ => false

/-- Join two operands of a level; only `and` and `or` may leave the right one alone. -/
def join : Level → Expr → Token → Expr → Expr
  | disjunction, left, op, right | conjunction, left, op, right => .logical left op right
  | _, left, op, right => .binary left op right

/-- Extend what has been read by every operator of a level that follows, and the operands behind
them, to the left. -/
def chain (level : Level) (operand : Reader) (left : Parsed) : Parsed :=
  match _ : left.rest with
  | [] => left
  | op :: ts =>
    if level.accepts op then
      let right := operand.read ts
      chain level operand
        ⟨level.join left.value op right.value, left.faults ++ right.faults, right.rest⟩
    else left
termination_by left.rest.length
decreasing_by
  have := operand.length_rest_le ts
  simp_all only [List.length_cons]
  omega

theorem chain_eq_self {level : Level} {operand : Reader} {left : Parsed}
    (h : ∀ op ∈ left.rest.head?, level.accepts op = false) : level.chain operand left = left := by
  rw [chain]
  split
  · rfl
  · next op ts hr => simp [hr] at h; simp [h]

theorem chain_cons {level : Level} {operand : Reader} {left : Parsed} {op : Token}
    {ts : List Token} (hr : left.rest = op :: ts) (h : level.accepts op = true) :
    level.chain operand left = level.chain operand
      ⟨level.join left.value op (operand.read ts).value,
        left.faults ++ (operand.read ts).faults, (operand.read ts).rest⟩ := by
  conv => lhs; rw [chain]
  split
  · next h0 => simp [hr] at h0
  · next op' ts' h0 =>
    obtain ⟨rfl, rfl⟩ := List.cons.inj (hr.symm.trans h0)
    rw [if_pos h]

theorem chain_suffix (level : Level) (operand : Reader) (left : Parsed) :
    (level.chain operand left).rest <:+ left.rest := by
  fun_induction chain level operand left with
  | case1 => exact List.suffix_rfl
  | case2 left op ts hr _ right ih =>
    rw [hr]
    exact (ih.trans (operand.suffix ts)).trans (List.suffix_cons op ts)
  | case3 => exact List.suffix_rfl

def chained (level : Level) (operand : Reader) : Reader where
  read ts := level.chain operand (operand.read ts)
  advances ts := (level.chain_suffix operand _).trans (operand.advances ts)

theorem read_chained (level : Level) (operand : Reader) (ts : List Token) :
    (level.chained operand).read ts = level.chain operand (operand.read ts) := rfl

end Level

/-- Read with several levels, the loosest first, over one kind of operand. -/
def ladder (levels : List Level) (operand : Reader) : Reader := levels.foldr Level.chained operand

@[simp] theorem ladder_cons (level : Level) (levels : List Level) (operand : Reader) :
    ladder (level :: levels) operand = level.chained (ladder levels operand) := rfl

end Scratchpad
