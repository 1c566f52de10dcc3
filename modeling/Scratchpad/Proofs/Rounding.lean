import Scratchpad.Number.Text

/-! Rounding sees the value of a quotient and nothing else: neither the fraction nor the decimal that
writes the value plays a part. The decimal with the fewest digits reads back, and where none of a few
digits does, the expansion does. -/
namespace Scratchpad

namespace Binary64

/-! ## Quotients -/

section Scaled

variable {k : Nat} (hk : 0 < k)

include hk

theorem roundHalfEven_mul_right (num den : Nat) :
    roundHalfEven (num * k) (den * k) = roundHalfEven num den := by
  have hcut : num * k / (den * k) = num / den := Nat.mul_div_mul_right num den hk
  have hmore : den * k < 2 * (num % den * k) ↔ den < 2 * (num % den) := by
    rw [← Nat.mul_assoc, Nat.mul_lt_mul_right hk]
  have hhalf : 2 * (num % den * k) = den * k ↔ 2 * (num % den) = den := by
    rw [← Nat.mul_assoc, Nat.mul_left_inj (Nat.ne_of_gt hk)]
  simp only [roundHalfEven, hcut, Nat.mul_mod_mul_right, hmore, hhalf]

theorem significand_mul_right (num den : Nat) :
    significand (num * k) (den * k) = significand num den := by
  rw [significand, Nat.mul_div_mul_right num den hk, Nat.mul_right_comm,
    roundHalfEven_mul_right hk, ← significand]

theorem ofRatio_mul_right (negative : Bool) (num den : Nat) :
    ofRatio negative (num * k) (den * k) = ofRatio negative num den := by
  simp only [ofRatio, significand_mul_right hk, Nat.mul_div_mul_right num den hk]

end Scaled

/-- Equal quotients are rounded to the same double. -/
theorem ofRatio_congr (negative : Bool) {num den num' den' : Nat} (hd : 0 < den) (hd' : 0 < den')
    (h : num * den' = num' * den) : ofRatio negative num den = ofRatio negative num' den' :=
  calc ofRatio negative num den
    _ = ofRatio negative (num * den') (den * den') := (ofRatio_mul_right hd' negative num den).symm
    _ = ofRatio negative (num' * den) (den' * den) := by rw [h, Nat.mul_comm den]
    _ = ofRatio negative num' den' := ofRatio_mul_right hd negative num' den'

/-! ## Decimals -/

/-- How a number is written does not matter for the double nearest to it. -/
theorem ofDecimal_congr (negative : Bool) {d e : Decimal} (h : d.Same e) :
    ofDecimal negative d = ofDecimal negative e := by
  refine ofRatio_congr negative d.denominator_pos e.denominator_pos ?_
  rw [Nat.mul_right_comm, h, Nat.mul_right_comm]

theorem ofRatio_true (num den : Nat) : ofRatio true num den = (ofRatio false num den).neg := by
  simp only [ofRatio]
  split <;> rfl

theorem ofDecimal_true (d : Decimal) : ofDecimal true d = (ofDecimal false d).neg := by
  rw [ofDecimal, ofRatio_true, ← ofDecimal]

theorem readsBack_of_same {units : Nat} {fits : Fits units} {d e : Decimal}
    (hd : ReadsBack units fits d) (h : e.Same d) : ReadsBack units fits e :=
  (ofDecimal_congr false h).trans hd

theorem ofDecimal_of_readsBack {units : Nat} {fits : Fits units} {d : Decimal}
    (h : ReadsBack units fits d) (negative : Bool) :
    ofDecimal negative d = .finite negative units fits := by
  cases negative with
  | false => exact h
  | true =>
    have hfalse : ofDecimal false d = .finite false units fits := h
    rw [ofDecimal_true, hfalse, neg, Bool.not_false]

theorem numerator_mul_twoTo (m n : Nat) :
    (Decimal.mk (m * Nat.pow 5 n) (-n)).numerator * twoTo n =
      m * (Decimal.mk (m * Nat.pow 5 n) (-n)).denominator := by
  have hpow : Nat.pow 5 n * twoTo n = tenTo n := (Nat.mul_pow 5 2 n).symm
  rw [Decimal.numerator, Decimal.denominator, Int.toNat_neg_natCast, tenTo_zero, Nat.mul_one,
    Int.neg_neg, Int.toNat_natCast, Nat.mul_assoc, hpow]

theorem readsBack_expansion (units : Nat) (fits : Fits units) :
    ReadsBack units fits (expansion units) := by
  have hvalue : (expansion units).numerator * unit * 1 = units * (expansion units).denominator := by
    have hplaces : (-1074 : Int) = -(1074 : Nat) := rfl
    rw [Nat.mul_one, unit, expansion, hplaces]
    generalize 1074 = n
    exact numerator_mul_twoTo units n
  rw [ReadsBack, ofDecimal, ofRatio_congr false (expansion units).denominator_pos Nat.one_pos hvalue,
    ofRatio_one]

theorem readsBack_shortest (units : Nat) (fits : Fits units) :
    ReadsBack units fits (shortest units fits) := by
  rw [shortest]
  cases h : (List.range 17).findSome? fun n : Nat =>
      onGrid units fits (leading units - (n + 1)) with
  | none => exact readsBack_expansion units fits
  | some d =>
    obtain ⟨n, -, hgrid⟩ := List.exists_of_findSome?_eq_some h
    exact readsBack_of_onGrid hgrid

end Binary64
end Scratchpad
