/-! The doubles. A finite one is a sign and a whole number of units of `2 ^ -1074`, the least
positive double, so that sums, remainders and comparisons are arithmetic on naturals. Everything
inexact goes through one rounding, `ofRatio`. There is a single NaN. -/
namespace Scratchpad

/-! ## Powers of two and of ten -/

def twoTo (n : Nat) : Nat := Nat.pow 2 n

def tenTo (n : Nat) : Nat := Nat.pow 10 n

theorem twoTo_pos (n : Nat) : 0 < twoTo n := Nat.two_pow_pos n

theorem twoTo_add (m n : Nat) : twoTo (m + n) = twoTo m * twoTo n := Nat.pow_add 2 m n

theorem twoTo_le_twoTo {m n : Nat} (h : m ≤ n) : twoTo m ≤ twoTo n :=
  Nat.pow_le_pow_right Nat.two_pos h

theorem twoTo_lt_twoTo {m n : Nat} (h : m < n) : twoTo m < twoTo n :=
  Nat.pow_lt_pow_right Nat.one_lt_two h

theorem twoTo_dvd_twoTo {m n : Nat} (h : m ≤ n) : twoTo m ∣ twoTo n := Nat.pow_dvd_pow 2 h

theorem lt_twoTo_log2_succ (n : Nat) : n < twoTo (n.log2 + 1) := Nat.lt_log2_self

theorem log2_lt_of_lt_twoTo {n k : Nat} (hn : 0 < n) (h : n < twoTo k) : n.log2 < k :=
  (Nat.log2_lt (Nat.ne_of_gt hn)).2 h

@[simp] theorem tenTo_zero : tenTo 0 = 1 := rfl

theorem tenTo_pos (n : Nat) : 0 < tenTo n := Nat.pow_pos (by decide)

theorem tenTo_add (m n : Nat) : tenTo (m + n) = tenTo m * tenTo n := Nat.pow_add 10 m n

/-! ## Doubles -/

namespace Binary64

/-- Units per one. -/
def unit : Nat := twoTo 1074

/-- Units of the least power of two that is too large for a finite double. -/
def overflow : Nat := twoTo 2098

def excessBits (units : Nat) : Nat := units.log2 - 52

theorem lt_twoTo_excessBits (units : Nat) : units < twoTo (excessBits units + 53) :=
  Nat.lt_of_lt_of_le (lt_twoTo_log2_succ units) (twoTo_le_twoTo (by simp only [excessBits]; omega))

theorem excessBits_le_of_lt {units e : Nat} (h : units < twoTo (e + 53)) :
    excessBits units ≤ e := by
  rcases Nat.eq_zero_or_pos units with h0 | h0
  · subst h0; simp [excessBits]
  · have := log2_lt_of_lt_twoTo h0 h
    simp only [excessBits]; omega

/-- At most 53 significant bits, below the overflow. -/
def Fits (units : Nat) : Prop := units < overflow ∧ twoTo (excessBits units) ∣ units

instance (units : Nat) : Decidable (Fits units) := by unfold Fits; infer_instance

/-- A quantity fits as soon as a power of two divides it that leaves at most 53 bits. -/
theorem Fits.of_dvd {units e : Nat} (hlt : units < overflow) (he : twoTo e ∣ units)
    (hb : units < twoTo (e + 53)) : Fits units :=
  ⟨hlt, Nat.dvd_trans (twoTo_dvd_twoTo (excessBits_le_of_lt hb)) he⟩

theorem Fits.of_lt {units : Nat} (h : units < twoTo 53) : Fits units :=
  .of_dvd (e := 0) (Nat.lt_trans h (twoTo_lt_twoTo (by decide))) (Nat.one_dvd units) h

@[simp] theorem fits_zero : Fits 0 := .of_lt (twoTo_pos 53)

/-- A significand of 53 bits, or the carry out of one, at any exponent. -/
theorem Fits.mul_twoTo {m e : Nat} (hm : m ≤ twoTo 53) (hlt : m * twoTo e < overflow) :
    Fits (m * twoTo e) := by
  rcases Nat.lt_or_eq_of_le hm with h | h
  · refine .of_dvd hlt (Nat.dvd_mul_left _ _) ?_
    rw [twoTo_add, Nat.mul_comm]
    exact Nat.mul_lt_mul_of_pos_left h (twoTo_pos e)
  · refine .of_dvd (e := e + 1) hlt ⟨twoTo 52, ?_⟩ ?_
    · rw [h, ← twoTo_add, ← twoTo_add]; congr 1; omega
    · rw [h, ← twoTo_add]; exact twoTo_lt_twoTo (by omega)

theorem Fits.mod {u v : Nat} (hu : Fits u) (hv : Fits v) : Fits (u % v) := by
  rcases Nat.eq_zero_or_pos v with h0 | h0
  · subst h0; rwa [Nat.mod_zero]
  have hlt : u % v < v := Nat.mod_lt _ h0
  have hle : u % v ≤ u := Nat.mod_le _ _
  rcases Nat.le_total (excessBits u) (excessBits v) with h | h
  · refine .of_dvd (e := excessBits u) (Nat.lt_of_le_of_lt hle hu.1) ?_
      (Nat.lt_of_le_of_lt hle (lt_twoTo_excessBits u))
    exact (Nat.dvd_mod_iff (Nat.dvd_trans (twoTo_dvd_twoTo h) hv.2)).2 hu.2
  · refine .of_dvd (e := excessBits v) (Nat.lt_of_le_of_lt hle hu.1) ?_
      (Nat.lt_trans hlt (lt_twoTo_excessBits v))
    exact (Nat.dvd_mod_iff hv.2).2 (Nat.dvd_trans (twoTo_dvd_twoTo h) hu.2)

/-- The quotient rounded to a natural, a half to the even neighbour. -/
def roundHalfEven (num den : Nat) : Nat :=
  let q := num / den
  let r := num % den
  if den < 2 * r ∨ (2 * r = den ∧ q % 2 = 1) then q + 1 else q

theorem roundHalfEven_le (num den : Nat) : roundHalfEven num den ≤ num / den + 1 := by
  simp only [roundHalfEven]; split <;> omega

theorem roundHalfEven_of_dvd {num den : Nat} (hd : 0 < den) (h : den ∣ num) :
    roundHalfEven num den = num / den := by
  simp only [roundHalfEven, Nat.mod_eq_zero_of_dvd h]
  split
  · omega
  · rfl

def significand (num den : Nat) : Nat := roundHalfEven num (den * twoTo (excessBits (num / den)))

theorem significand_le (num den : Nat) : significand num den ≤ twoTo 53 := by
  refine Nat.le_trans (roundHalfEven_le _ _) ?_
  have h := lt_twoTo_excessBits (num / den)
  rw [twoTo_add] at h
  rw [← Nat.div_div_eq_div_mul]
  exact Nat.div_lt_of_lt_mul h

end Binary64

inductive Binary64 where
  | nan
  | infinite (negative : Bool)
  | finite (negative : Bool) (units : Nat) (fits : Binary64.Fits units)
  deriving DecidableEq

namespace Binary64

/-- The double nearest to `num / den` units, of two equally near ones that with the even
significand; what rounds to `2 ^ 1024` or beyond is infinite. -/
def ofRatio (negative : Bool) (num den : Nat) : Binary64 :=
  let units := significand num den * twoTo (excessBits (num / den))
  if h : units < overflow then .finite negative units (.mul_twoTo (significand_le num den) h)
  else .infinite negative

theorem ofRatio_one (negative : Bool) (units : Nat) (fits : Fits units) :
    ofRatio negative units 1 = .finite negative units fits := by
  have hm : significand units 1 * twoTo (excessBits (units / 1)) = units := by
    rw [significand, Nat.div_one, Nat.one_mul, roundHalfEven_of_dvd (twoTo_pos _) fits.2,
      Nat.div_mul_cancel fits.2]
  simp only [ofRatio, hm, dif_pos fits.1]

def zero (negative : Bool) : Binary64 := .finite negative 0 fits_zero

/-- A signed count of units, rounded; the sign of an exact zero is given. -/
def ofUnits (zeroNegative : Bool) (n : Int) : Binary64 :=
  if n = 0 then zero zeroNegative else ofRatio (decide (n < 0)) n.natAbs 1

def signedUnits (negative : Bool) (units : Nat) : Int :=
  if negative then -units else units

def isNaN : Binary64 → Bool
  | .nan => true
  | _ => false

def neg : Binary64 → Binary64
  | .nan => .nan
  | .infinite s => .infinite !s
  | .finite s u h => .finite (!s) u h

/-- A sum that cancels is `+0`, unless both terms are negative zeros. -/
def add : Binary64 → Binary64 → Binary64
  | .nan, _ | _, .nan => .nan
  | .infinite s, .infinite t => if s = t then .infinite s else .nan
  | .infinite s, .finite .. => .infinite s
  | .finite .., .infinite t => .infinite t
  | .finite s u _, .finite t v _ => ofUnits (s && t) (signedUnits s u + signedUnits t v)

def sub (x y : Binary64) : Binary64 := x.add y.neg

def mul : Binary64 → Binary64 → Binary64
  | .nan, _ | _, .nan => .nan
  | .infinite s, .infinite t => .infinite (s != t)
  | .infinite s, .finite t v _ => if v = 0 then .nan else .infinite (s != t)
  | .finite s u _, .infinite t => if u = 0 then .nan else .infinite (s != t)
  | .finite s u _, .finite t v _ => ofRatio (s != t) (u * v) unit

/-- Dividing by a zero gives an infinity with the product of the signs, and NaN for `0 / 0`. -/
def div : Binary64 → Binary64 → Binary64
  | .nan, _ | _, .nan => .nan
  | .infinite _, .infinite _ => .nan
  | .infinite s, .finite t _ _ => .infinite (s != t)
  | .finite s _ _, .infinite t => zero (s != t)
  | .finite s u _, .finite t v _ =>
    if v = 0 then if u = 0 then .nan else .infinite (s != t)
    else ofRatio (s != t) (u * unit) v

/-- The exact remainder of the quotient cut toward zero, with the sign of the dividend. -/
def mod : Binary64 → Binary64 → Binary64
  | .nan, _ | _, .nan | .infinite _, _ => .nan
  | .finite s u h, .infinite _ => .finite s u h
  | .finite s u h, .finite _ v k => if v = 0 then .nan else .finite s (u % v) (h.mod k)

/-- The place of a value in the order, in units; NaN has none. -/
def rank : Binary64 → Option Int
  | .nan => none
  | .infinite s => some (signedUnits s overflow)
  | .finite s u _ => some (signedUnits s u)

def compare (r : Int → Int → Bool) (x y : Binary64) : Bool :=
  match x.rank, y.rank with
  | some a, some b => r a b
  | _, _ => false

def lt : Binary64 → Binary64 → Bool := compare fun a b => decide (a < b)
def le : Binary64 → Binary64 → Bool := compare fun a b => decide (a ≤ b)

/-- Equality of values: both zeros are equal, and NaN is not equal to itself. -/
def eqv : Binary64 → Binary64 → Bool := compare fun a b => decide (a = b)

/-- The interchange format: a sign bit, 11 bits of biased exponent, 52 of fraction. -/
def ofBits (bits : UInt64) : Binary64 :=
  let negative := decide (twoTo 63 ≤ bits.toNat)
  let exponent := bits.toNat / twoTo 52 % twoTo 11
  let fraction := bits.toNat % twoTo 52
  if exponent = 2047 then if fraction = 0 then .infinite negative else .nan
  else ofRatio negative
    (if exponent = 0 then fraction else (twoTo 52 + fraction) * twoTo (exponent - 1)) 1

def toBits : Binary64 → UInt64
  | .nan => 0x7ff8000000000000
  | .infinite s => UInt64.ofNat (s.toNat * twoTo 63 + 2047 * twoTo 52)
  | .finite s u _ => UInt64.ofNat
      (s.toNat * twoTo 63 + (excessBits u * twoTo 52 + u / twoTo (excessBits u)))

end Binary64
end Scratchpad
