import Mathlib.Algebra.Order.Field.Basic
import Mathlib.Data.Rat.Cast.Order
import Mathlib.Tactic.Ring
import Scratchpad.Number.Binary64

/-! Quotients and remainders at the edges. Division and remainder each have operands that they
cannot be carried out on. These are set apart in front, each class with the result that it has, so
that there is a quotient and a remainder for any two doubles; and the remainder of two finite ones
is exact, however far apart they are. -/
namespace Scratchpad
namespace Binary64

def isZero : Binary64 → Bool
  | .finite _ units _ => units = 0
  | _ => false

def isInfinite : Binary64 → Bool
  | .infinite _ => true
  | _ => false

def isNegative : Binary64 → Bool
  | .nan => false
  | .infinite s | .finite s _ _ => s

def value? : Binary64 → Option ℚ
  | .finite s units _ => some (signedUnits s units / unit)
  | _ => none

def one (negative : Bool) : Binary64 :=
  .finite negative (1 * twoTo 1074)
    (.mul_twoTo (twoTo_pos 53) (by rw [Nat.one_mul]; exact twoTo_lt_twoTo (by omega)))

/-! ## Operations that refuse operands -/

/-- Division, refused for a zero divisor, whatever the dividend is. -/
def quotient? (x y : Binary64) : Option Binary64 := if y.isZero then none else some (x.div y)

/-- The remainder, refused for an infinite dividend and for a zero divisor unless one of the
operands is NaN. -/
def remainder? (x y : Binary64) : Option Binary64 :=
  if !x.isNaN && !y.isNaN && (x.isInfinite || y.isZero) then none else some (x.mod y)

/-- Division with the zero divisors set apart: there an infinity with the sign of the dividend is
multiplied by a one with the sign of the divisor. -/
def guardedDiv (x y : Binary64) : Option Binary64 :=
  if y.eqv (zero false) then
    if x.eqv (zero false) || x.isNaN then some .nan
    else some ((infinite x.isNegative).mul (one y.isNegative))
  else quotient? x y

/-- The remainder with the operands set apart for which there is none. -/
def guardedMod (x y : Binary64) : Option Binary64 :=
  if y.eqv (zero false) || x.isInfinite || x.isNaN || y.isNaN then some .nan else remainder? x y

theorem eqv_zero (x : Binary64) : x.eqv (zero false) = x.isZero := by
  have hoverflow : overflow ≠ 0 := (twoTo_pos 2098).ne'
  cases x with
  | nan => rfl
  | infinite s =>
    show decide (signedUnits s overflow = 0) = false
    generalize overflow = n at hoverflow ⊢
    cases s <;> simp [signedUnits, hoverflow]
  | finite s u _ =>
    show decide (signedUnits s u = 0) = decide (u = 0)
    cases s <;> simp [signedUnits]

theorem infinite_mul_one (s t : Bool) : (infinite s).mul (one t) = infinite (s != t) := by
  have hunits : 1 * twoTo 1074 ≠ 0 := by
    rw [Nat.one_mul]
    exact (twoTo_pos 1074).ne'
  rw [one, mul, if_neg hunits]

theorem div_of_isZero {x y : Binary64} (hy : y.isZero = true) :
    x.div y = if x.isZero || x.isNaN then .nan else infinite (x.isNegative != y.isNegative) := by
  cases y with
  | nan | infinite => cases hy
  | finite t v _ =>
    have hv : v = 0 := by simpa [isZero] using hy
    cases x with
    | nan | infinite => rfl
    | finite s u _ => by_cases hu : u = 0 <;> simp [div, isZero, isNaN, isNegative, hu, hv]

/-- What is set apart in a division are all operands that it is refused for. -/
theorem guardedDiv_eq (x y : Binary64) : guardedDiv x y = some (x.div y) := by
  rw [guardedDiv, eqv_zero, eqv_zero]
  cases hy : y.isZero with
  | false => simp [quotient?, hy]
  | true =>
    rw [div_of_isZero hy, infinite_mul_one]
    cases x.isZero || x.isNaN <;> rfl

theorem mod_eq_nan_iff (x y : Binary64) :
    x.mod y = .nan ↔ y.isZero = true ∨ x.isInfinite = true ∨ x = .nan ∨ y = .nan := by
  cases x with
  | nan => cases y <;> simp [mod]
  | infinite => cases y <;> simp [mod, isInfinite]
  | finite s u _ =>
    cases y with
    | nan | infinite => simp [mod, isZero, isInfinite]
    | finite t v _ => by_cases hv : v = 0 <;> simp [mod, isZero, isInfinite, hv]

theorem guardedMod_eq (x y : Binary64) : guardedMod x y = some (x.mod y) := by
  rw [guardedMod, eqv_zero]
  cases x with
  | nan => cases y <;> simp [mod, isNaN]
  | infinite => cases y <;> simp [mod, isInfinite]
  | finite s u _ =>
    cases y with
    | nan | infinite => rfl
    | finite t v _ => by_cases hv : v = 0 <;> simp [mod, remainder?, isZero, isInfinite, isNaN, hv]

/-! ## The exact remainder -/

theorem unit_pos : (0 : ℚ) < unit := by exact_mod_cast twoTo_pos 1074

theorem abs_signedUnits (negative : Bool) (units : Nat) :
    |((signedUnits negative units : ℤ) : ℚ)| = units := by
  cases negative <;> simp [signedUnits]

/-- The quotient cut toward zero, and what it leaves. -/
theorem exists_signedUnits_sub (s t : Bool) (u v : Nat) :
    ∃ k : ℤ, signedUnits s u - signedUnits s (u % v) = k * signedUnits t v := by
  have hdiv : v * (u / v) + u % v = u := Nat.div_add_mod u v
  refine ⟨signedUnits (s != t) (u / v), ?_⟩
  generalize u / v = q at hdiv ⊢
  generalize u % v = r at hdiv ⊢
  subst hdiv
  cases s <;> cases t <;> simp [signedUnits] <;> ring

theorem exists_value?_mod {x y : Binary64} {a b : ℚ} (ha : x.value? = some a)
    (hb : y.value? = some b) (hne : b ≠ 0) :
    ∃ r : ℚ, (x.mod y).value? = some r ∧ |r| < |b| ∧ (∃ k : ℤ, a - r = k * b) ∧
      (x.mod y).isNegative = x.isNegative := by
  cases x with
  | nan | infinite => cases ha
  | finite s u hu =>
    cases y with
    | nan | infinite => cases hb
    | finite t v hv =>
      obtain rfl := Option.some.inj ha
      obtain rfl := Option.some.inj hb
      have hv0 : v ≠ 0 := by
        rintro rfl
        have hzero : signedUnits t 0 = 0 := by cases t <;> rfl
        exact hne (by rw [hzero, Int.cast_zero, zero_div])
      have hmod : (finite s u hu).mod (finite t v hv) = finite s (u % v) (hu.mod hv) := by
        rw [mod, if_neg hv0]
      -- the remainder keeps the sign of the dividend, so only magnitudes are divided
      obtain ⟨k, hk⟩ := exists_signedUnits_sub s t u v
      rw [hmod]
      refine ⟨_, rfl, ?_, ⟨k, ?_⟩, rfl⟩
      · rw [abs_div, abs_div, abs_signedUnits, abs_signedUnits, abs_of_pos unit_pos]
        apply div_lt_div_of_pos_right _ unit_pos
        exact_mod_cast Nat.mod_lt u (Nat.pos_of_ne_zero hv0)
      · rw [← sub_div, ← mul_div_assoc]
        congr 1
        exact_mod_cast hk

/-- A quotient and a remainder are there for any two doubles: what is set apart in front of a
division or a remainder is all that it would be refused for. A zero divisor gives NaN for zeros and
NaN, and otherwise an infinity with the product of both signs. There is no remainder of an infinite
dividend or by a zero, nor with NaN; an infinite divisor leaves a finite dividend as it is; and for
finite operands the remainder is exact: smaller than the divisor, a whole number of divisors away
from the dividend, and with the sign of the dividend even where it is zero. -/
theorem arithmetic_at_the_edges (x y : Binary64) :
    guardedDiv x y = some (x.div y) ∧ guardedMod x y = some (x.mod y) ∧
    (y.isZero = true →
      (x.div y = .nan ↔ x.isZero = true ∨ x = .nan) ∧
      (x.div y ≠ .nan → x.div y = infinite (x.isNegative != y.isNegative))) ∧
    (x.mod y = .nan ↔ y.isZero = true ∨ x.isInfinite = true ∨ x = .nan ∨ y = .nan) ∧
    (y.isInfinite = true → x.value?.isSome = true → x.mod y = x) ∧
    ∀ a b : ℚ, x.value? = some a → y.value? = some b → b ≠ 0 →
      ∃ r : ℚ, (x.mod y).value? = some r ∧ |r| < |b| ∧ (∃ k : ℤ, a - r = k * b) ∧
        (x.mod y).isNegative = x.isNegative := by
  refine ⟨guardedDiv_eq x y, guardedMod_eq x y, fun hy => ?_, mod_eq_nan_iff x y, fun hy hx => ?_,
    fun a b => exists_value?_mod⟩
  · rw [div_of_isZero hy]
    cases x <;> simp [isZero, isNaN]
  · cases y with
    | nan | finite => cases hy
    | infinite =>
      cases x with
      | nan | infinite => cases hx
      | finite => rfl

def least : Binary64 :=
  .finite true ((twoTo 53 - 1) * twoTo 2045) (.mul_twoTo (Nat.sub_le _ _) (by decide +kernel))

/-- The remainder of the least finite double by three times the least positive one, and a quotient
by the negative zero. -/
theorem arithmetic_at_the_edges_apart :
    let three : Binary64 := .finite false 3 (.of_lt (by decide))
    let two : Binary64 := .finite true 2 (.of_lt (by decide))
    let minusZero := zero true
    three.value? = some ((3 : ℚ) / unit) ∧ (3 : ℚ) / unit ≠ 0 ∧ least.mod three = two ∧
      (∃ r : ℚ, two.value? = some r ∧ |r| < |(3 : ℚ) / unit|) ∧
      minusZero.isZero = true ∧ least.div minusZero = infinite (true != true) := by
  intro three two minusZero
  have hunits : ((signedUnits false 3 : ℤ) : ℚ) = 3 := by norm_num [signedUnits]
  have hthree : three.value? = some ((3 : ℚ) / unit) :=
    congrArg (fun q : ℚ => some (q / unit)) hunits
  have hne : (3 : ℚ) / unit ≠ 0 := (div_pos (by norm_num) unit_pos).ne'
  have hmod : least.mod three = two := by decide +kernel
  obtain ⟨-, -, -, -, -, hexact⟩ := arithmetic_at_the_edges least three
  obtain ⟨-, -, hzero, -⟩ := arithmetic_at_the_edges least minusZero
  obtain ⟨r, hr, hlt, -⟩ := hexact _ _ rfl hthree hne
  rw [hmod] at hr
  exact ⟨hthree, hne, hmod, ⟨r, hr, hlt⟩, rfl, (hzero rfl).2 (by decide +kernel)⟩

end Binary64
end Scratchpad
