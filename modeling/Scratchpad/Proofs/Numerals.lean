import Scratchpad.Proofs.LongestMatch

/-! Plain numerals: no exponent, no zero in front of the whole part that could be left out, none
behind the fraction, and no point without digits on both sides. Each decimal has exactly one plain
numeral that denotes the same number. -/
namespace Scratchpad

/-- Digits in front of a point: a zero leads only where it stands alone. -/
structure IsWhole (text : List Char) : Prop extends IsDigits text where
  unpadded : text = ['0'] ∨ text.head? ≠ some '0'

/-- A whole number, or one with a fraction that does not end in a zero. -/
inductive PlainNumeral : List Char → Prop where
  | whole {text : List Char} : IsWhole text → PlainNumeral text
  | fraction {whole part : List Char} :
    IsWhole whole → IsDigits part → part.getLast? ≠ some '0' →
    PlainNumeral (whole ++ '.' :: part)

theorem PlainNumeral.spells {text : List Char} (h : PlainNumeral text) :
    Spells text (.number (.ofDecimal false (.ofNumeral text))) := by
  cases h with
  | whole hw => exact .whole hw.toIsDigits
  | fraction hw hp _ => exact .fraction hw.toIsDigits hp

/-! ## Digits and their value -/

theorem isDigit_eq_isDigit (c : Char) : isDigit c = c.isDigit := rfl

theorem exists_digitChar {c : Char} (h : isDigit c = true) : ∃ n < 10, n.digitChar = c := by
  have hrange : 48 ≤ c.toNat ∧ c.toNat ≤ 57 := by
    rw [isDigit_eq_inRanges] at h
    simpa [inRanges] using h
  refine ⟨c.toNat - 48, by omega, Char.toNat_inj.1 ?_⟩
  rw [Nat.toNat_digitChar_of_lt_ten (by omega)]
  omega

theorem isDigit_of_mem_zeros {k : Nat} {d : Char} (h : d ∈ List.replicate k '0') :
    isDigit d = true := by
  rw [List.eq_of_mem_replicate h]
  decide

theorem isDigits_toDigits (n : Nat) : IsDigits (Nat.toDigits 10 n) where
  digits d hd := (isDigit_eq_isDigit d).trans (Nat.isDigit_of_mem_toDigits (by decide) (by decide) hd)
  nonempty := Nat.toDigits_ne_nil

theorem head?_toDigits {n : Nat} (hn : 0 < n) : (Nat.toDigits 10 n).head? ≠ some '0' := by
  induction n using Nat.strongRecOn with
  | ind n ih =>
    rw [Nat.toDigits_eq_if (by decide)]
    split
    · simp only [List.head?_cons, ne_eq, Option.some.injEq, Nat.digitChar_eq_zero]
      omega
    · obtain ⟨c, cs, hcs⟩ := List.exists_cons_of_ne_nil (Nat.toDigits_ne_nil (n := n / 10) (b := 10))
      have hhead := ih (n / 10) (by omega) (by omega)
      rwa [hcs] at hhead ⊢

theorem isWhole_toDigits (n : Nat) : IsWhole (Nat.toDigits 10 n) where
  toIsDigits := isDigits_toDigits n
  unpadded := by
    rcases Nat.eq_zero_or_pos n with rfl | hn
    · exact .inl (Nat.toDigits_zero 10)
    · exact .inr (head?_toDigits hn)

/-- Digits behind a number continue its digits. -/
theorem toDigits_ofDigitChars_of_pos {cs : List Char} (h : ∀ d ∈ cs, isDigit d = true) {n : Nat}
    (hn : 0 < n) : Nat.toDigits 10 (Nat.ofDigitChars 10 cs n) = Nat.toDigits 10 n ++ cs := by
  induction cs generalizing n with
  | nil => rw [Nat.ofDigitChars_nil, List.append_nil]
  | cons c cs ih =>
    obtain ⟨hc, hcs⟩ := List.forall_mem_cons.1 h
    obtain ⟨d, hd, rfl⟩ := exists_digitChar hc
    rw [Nat.ofDigitChars_cons_digitChar_of_lt_ten hd, ih hcs (by omega),
      ← Nat.toDigits_append_toDigits (by decide) hn hd, Nat.toDigits_of_lt_base hd,
      List.append_assoc, List.singleton_append]

/-- Digits without a zero in front are the digits of their value. -/
theorem IsWhole.toDigits_ofDigitChars {text : List Char} (h : IsWhole text) :
    Nat.toDigits 10 (Nat.ofDigitChars 10 text 0) = text := by
  obtain ⟨c, cs, rfl, hc, hcs⟩ := h.toIsDigits.exists_cons
  obtain ⟨d, hd, rfl⟩ := exists_digitChar hc
  rcases Nat.eq_zero_or_pos d with rfl | hpos
  · rcases h.unpadded with hzero | hhead
    · rw [hzero]
      rfl
    · exact absurd rfl hhead
  · rw [Nat.ofDigitChars_cons_digitChar_of_lt_ten hd, Nat.mul_zero, Nat.zero_add,
      toDigits_ofDigitChars_of_pos hcs hpos, Nat.toDigits_of_lt_base hd, List.singleton_append]

theorem ofDigitChars_append_zero (a b : List Char) :
    Nat.ofDigitChars 10 (a ++ b) 0 =
      tenTo b.length * Nat.ofDigitChars 10 a 0 + Nat.ofDigitChars 10 b 0 := by
  rw [Nat.ofDigitChars_append, Nat.ofDigitChars_eq_ofDigitChars_zero]
  rfl

theorem ofDigitChars_append_zeros (text : List Char) (k : Nat) :
    Nat.ofDigitChars 10 (text ++ List.replicate k '0') 0 =
      tenTo k * Nat.ofDigitChars 10 text 0 := by
  rw [Nat.ofDigitChars_append, Nat.ofDigitChars_replicate_zero]
  rfl

theorem ofDigitChars_lt {text : List Char} (h : ∀ d ∈ text, isDigit d = true) :
    Nat.ofDigitChars 10 text 0 < tenTo text.length := by
  induction text with
  | nil => exact Nat.one_pos
  | cons c cs ih =>
    obtain ⟨hc, hcs⟩ := List.forall_mem_cons.1 h
    obtain ⟨d, hd, rfl⟩ := exists_digitChar hc
    have hdigit : Nat.ofDigitChars 10 [d.digitChar] 0 = d :=
      (Nat.ofDigitChars_cons_digitChar_of_lt_ten hd).trans (Nat.zero_add d)
    rw [← List.singleton_append, ofDigitChars_append_zero, hdigit, List.length_append, Nat.add_comm,
      Nat.add_comm _ cs.length, tenTo_add]
    calc Nat.ofDigitChars 10 cs 0 + tenTo cs.length * d
      _ < tenTo cs.length + tenTo cs.length * d := Nat.add_lt_add_right (ih hcs) _
      _ = tenTo cs.length * (d + 1) := by rw [Nat.mul_succ, Nat.add_comm]
      _ ≤ tenTo cs.length * tenTo 1 := Nat.mul_le_mul_left _ hd

theorem eq_of_ofDigitChars_eq {a b : List Char} (ha : ∀ d ∈ a, isDigit d = true)
    (hb : ∀ d ∈ b, isDigit d = true) (hlength : a.length = b.length)
    (h : Nat.ofDigitChars 10 a 0 = Nat.ofDigitChars 10 b 0) : a = b := by
  have hone : Nat.ofDigitChars 10 a 1 = Nat.ofDigitChars 10 b 1 := by
    rw [Nat.ofDigitChars_eq_ofDigitChars_zero, h, hlength,
      ← Nat.ofDigitChars_eq_ofDigitChars_zero]
  have hdigits : Nat.toDigits 10 1 ++ a = Nat.toDigits 10 1 ++ b := by
    rw [← toDigits_ofDigitChars_of_pos ha Nat.one_pos, hone,
      toDigits_ofDigitChars_of_pos hb Nat.one_pos]
  exact List.append_cancel_left hdigits

/-- Digits are cut at the same place into the same parts. -/
theorem ofDigitChars_append_inj {a b p q : List Char} (hp : ∀ d ∈ p, isDigit d = true)
    (hq : ∀ d ∈ q, isDigit d = true) (hlength : p.length = q.length)
    (h : Nat.ofDigitChars 10 (a ++ p) 0 = Nat.ofDigitChars 10 (b ++ q) 0) :
    Nat.ofDigitChars 10 a 0 = Nat.ofDigitChars 10 b 0 ∧ p = q := by
  have hpos := tenTo_pos q.length
  have hplt := ofDigitChars_lt hp
  have hqlt := ofDigitChars_lt hq
  rw [hlength] at hplt
  rw [ofDigitChars_append_zero, ofDigitChars_append_zero, hlength] at h
  have hdiv := congrArg (· / tenTo q.length) h
  have hmod := congrArg (· % tenTo q.length) h
  simp only [Nat.mul_add_div hpos, Nat.mul_add_mod, Nat.div_eq_of_lt hplt, Nat.div_eq_of_lt hqlt,
    Nat.mod_eq_of_lt hplt, Nat.mod_eq_of_lt hqlt, Nat.add_zero] at hdiv hmod
  exact ⟨hdiv, eq_of_ofDigitChars_eq hp hq hlength hmod⟩

/-! ## Trailing zeros -/

theorem exists_dropTrailingZeros_append (text : List Char) :
    ∃ k, dropTrailingZeros text ++ List.replicate k '0' = text := by
  have hzeros : ∀ c ∈ text.reverse.takeWhile (· = '0'), c = '0' := fun c hc => by
    simpa using List.all_eq_true.1 List.all_takeWhile c hc
  refine ⟨(text.reverse.takeWhile (· = '0')).length, ?_⟩
  calc dropTrailingZeros text ++ List.replicate (text.reverse.takeWhile (· = '0')).length '0'
    _ = (text.reverse.takeWhile (· = '0') ++ text.reverse.dropWhile (· = '0')).reverse := by
      rw [List.reverse_append, ← dropTrailingZeros]
      conv => rhs; rw [List.eq_replicate_of_mem hzeros, List.reverse_replicate]
    _ = text := by rw [List.takeWhile_append_dropWhile, List.reverse_reverse]

theorem getLast?_dropTrailingZeros (text : List Char) :
    (dropTrailingZeros text).getLast? ≠ some '0' := by
  rw [dropTrailingZeros, List.getLast?_reverse]
  intro hlast
  have hhead := List.head?_dropWhile_not (· = '0') text.reverse
  simp [hlast] at hhead

theorem dropTrailingZeros_append_replicate {text : List Char} (h : text.getLast? ≠ some '0')
    (k : Nat) : dropTrailingZeros (text ++ List.replicate k '0') = text := by
  have hkept : text.reverse.dropWhile (· = '0') = text.reverse := by
    cases hr : text.reverse with
    | nil => rfl
    | cons c cs =>
      have hc : c ≠ '0' := by
        rintro rfl
        rw [List.getLast?_eq_head?_reverse, hr] at h
        exact h rfl
      rw [List.dropWhile_cons_of_neg (by simpa using hc)]
  rw [dropTrailingZeros, List.reverse_append, List.reverse_replicate,
    List.dropWhile_append_of_pos (by simp), hkept, List.reverse_reverse]

/-! ## Numerals -/

def pointed (whole : List Char) : List Char → List Char
  | [] => whole
  | part => whole ++ '.' :: part

theorem plainNumeral_pointed {whole part : List Char} (hw : IsWhole whole)
    (hp : ∀ d ∈ part, isDigit d = true) (hlast : part.getLast? ≠ some '0') :
    PlainNumeral (pointed whole part) := by
  cases part with
  | nil => exact .whole hw
  | cons d ds => exact .fraction hw ⟨hp, List.cons_ne_nil d ds⟩ hlast

theorem PlainNumeral.exists_pointed {text : List Char} (h : PlainNumeral text) :
    ∃ whole part, text = pointed whole part ∧ IsWhole whole ∧
      (∀ d ∈ part, isDigit d = true) ∧ part.getLast? ≠ some '0' := by
  cases h with
  | whole hw => exact ⟨text, [], rfl, hw, by simp, by simp⟩
  | @fraction whole part hw hp hlast =>
    obtain ⟨d, ds, rfl, -, -⟩ := hp.exists_cons
    exact ⟨whole, d :: ds, rfl, hw, hp.digits, hlast⟩

namespace Decimal

theorem ofNumeral_pointed {whole : List Char} (hw : ∀ d ∈ whole, isDigit d = true)
    (part : List Char) :
    ofNumeral (pointed whole part) =
      ⟨Nat.ofDigitChars 10 (whole ++ part) 0, -part.length⟩ := by
  have hpoint : ∀ d ∈ whole, decide (d ≠ '.') = true := by
    intro d hd
    have hdigit := hw d hd
    refine decide_eq_true ?_
    rintro rfl
    revert hdigit
    decide
  cases part with
  | nil =>
    have htake : (whole ++ []).takeWhile (· ≠ '.') = whole ++ [].takeWhile (· ≠ '.') :=
      List.takeWhile_append_of_pos hpoint
    have hdrop : (whole ++ []).dropWhile (· ≠ '.') = [].dropWhile (· ≠ '.') :=
      List.dropWhile_append_of_pos hpoint
    simp only [List.append_nil, List.takeWhile_nil, List.dropWhile_nil] at htake hdrop
    simp only [pointed, ofNumeral, htake, hdrop, List.drop_nil, List.append_nil]
  | cons d ds =>
    simp only [pointed, ofNumeral, List.takeWhile_append_of_pos hpoint,
      List.dropWhile_append_of_pos hpoint]
    simp

theorem numeral_eq_pointed (d : Decimal) :
    d.numeral = pointed (Nat.toDigits 10 (d.numerator / d.denominator))
      (fraction (-d.exponent).toNat d.digits) := by
  simp only [numeral]
  cases fraction (-d.exponent).toNat d.digits <;> rfl

theorem fraction_zero (digits : Nat) : fraction 0 digits = [] := by
  simp [fraction, Nat.mod_one, dropTrailingZeros, List.leftpad]

theorem isDigit_of_mem_fraction {places digits : Nat} {d : Char}
    (h : d ∈ fraction places digits) : isDigit d = true := by
  obtain ⟨k, hk⟩ := exists_dropTrailingZeros_append
    (List.leftpad places '0' (Nat.toDigits 10 (digits % tenTo places)))
  have hd := hk ▸ List.mem_append_left (List.replicate k '0') h
  rw [List.leftpad, List.mem_append] at hd
  rcases hd with hzero | hdigit
  · exact isDigit_of_mem_zeros hzero
  · exact (isDigits_toDigits _).digits d hdigit

theorem exists_fraction_append (places digits : Nat) :
    ∃ k, (fraction places digits).length + k = places ∧
      Nat.ofDigitChars 10 (fraction places digits ++ List.replicate k '0') 0 =
        digits % tenTo places := by
  rcases Nat.eq_zero_or_pos places with rfl | hpos
  · exact ⟨0, by simp [fraction_zero], by simp [fraction_zero, Nat.mod_one]⟩
  · have hlt : digits % tenTo places < 10 ^ places := Nat.mod_lt _ (tenTo_pos places)
    have hlength := (Nat.length_toDigits_le_iff (by decide) hpos).2 hlt
    obtain ⟨k, hk⟩ := exists_dropTrailingZeros_append
      (List.leftpad places '0' (Nat.toDigits 10 (digits % tenTo places)))
    rw [← fraction] at hk
    refine ⟨k, ?_, ?_⟩
    · rw [← List.length_replicate (n := k) (a := '0'), ← List.length_append, hk,
        List.length_leftpad, Nat.max_eq_left hlength]
    · rw [hk, List.leftpad, ofDigitChars_append_zero, ← List.nil_append (List.replicate _ '0'),
        ofDigitChars_append_zeros, Nat.ofDigitChars_nil, Nat.mul_zero, Nat.mul_zero, Nat.zero_add,
        Nat.ofDigitChars_ten_toDigits]

theorem plainNumeral_numeral (d : Decimal) : PlainNumeral d.numeral := by
  rw [numeral_eq_pointed]
  exact plainNumeral_pointed (isWhole_toDigits _) (fun _ => isDigit_of_mem_fraction)
    (getLast?_dropTrailingZeros _)

theorem numerator_mod (d : Decimal) : d.numerator % d.denominator = d.digits % d.denominator := by
  rcases Int.le_total 0 d.exponent with h | h
  · have hone : d.denominator = 1 := by
      rw [denominator, Int.toNat_eq_zero.2 (Int.neg_nonpos_of_nonneg h), tenTo_zero]
    rw [hone, Nat.mod_one, Nat.mod_one]
  · rw [numerator, Int.toNat_eq_zero.2 h, tenTo_zero, Nat.mul_one]

theorem same_ofNumeral_numeral (d : Decimal) : (ofNumeral d.numeral).Same d := by
  obtain ⟨k, hplaces, hvalue⟩ := exists_fraction_append (-d.exponent).toNat d.digits
  generalize hpart : fraction (-d.exponent).toNat d.digits = part at hplaces hvalue
  generalize hwhole : Nat.toDigits 10 (d.numerator / d.denominator) = whole
  have hw : ∀ c ∈ whole, isDigit c = true := hwhole ▸ (isDigits_toDigits _).digits
  have hnumeral : Nat.ofDigitChars 10 (whole ++ part) 0 * tenTo k = d.numerator :=
    calc Nat.ofDigitChars 10 (whole ++ part) 0 * tenTo k
      _ = Nat.ofDigitChars 10 (whole ++ (part ++ List.replicate k '0')) 0 := by
        rw [← List.append_assoc, ofDigitChars_append_zeros, Nat.mul_comm]
      _ = d.denominator * (d.numerator / d.denominator) + d.numerator % d.denominator := by
        rw [ofDigitChars_append_zero, hvalue, List.length_append, List.length_replicate, hplaces,
          ← hwhole, Nat.ofDigitChars_ten_toDigits, numerator_mod, denominator]
      _ = d.numerator := Nat.div_add_mod _ _
  rw [numeral_eq_pointed, hpart, hwhole, ofNumeral_pointed hw, Same]
  calc Nat.ofDigitChars 10 (whole ++ part) 0 * tenTo (-(part.length : Int)).toNat * d.denominator
    _ = Nat.ofDigitChars 10 (whole ++ part) 0 * tenTo k * tenTo part.length := by
      rw [Int.toNat_neg_natCast, tenTo_zero, Nat.mul_one, denominator, ← hplaces, Nat.add_comm,
        tenTo_add, Nat.mul_assoc]
    _ = d.numerator * tenTo (-(-(part.length : Int))).toNat := by
      rw [hnumeral, Int.neg_neg, Int.toNat_natCast]

theorem Same.symm {d e : Decimal} (h : d.Same e) : e.Same d := Eq.symm h

theorem Same.trans {a b c : Decimal} (hab : a.Same b) (hbc : b.Same c) : a.Same c := by
  refine Nat.eq_of_mul_eq_mul_right b.denominator_pos ?_
  rw [Nat.mul_right_comm, hab, Nat.mul_right_comm, hbc, Nat.mul_right_comm]

end Decimal

/-- A number has one plain numeral: fractions are compared with as many zeros behind each as the
other has digits. -/
theorem PlainNumeral.eq_of_same {a b : List Char} (ha : PlainNumeral a) (hb : PlainNumeral b)
    (h : (Decimal.ofNumeral a).Same (.ofNumeral b)) : a = b := by
  obtain ⟨v, p, rfl, hv, hp, hplast⟩ := ha.exists_pointed
  obtain ⟨w, q, rfl, hw, hq, hqlast⟩ := hb.exists_pointed
  have hvalue : Nat.ofDigitChars 10 (v ++ p) 0 * tenTo q.length =
      Nat.ofDigitChars 10 (w ++ q) 0 * tenTo p.length := by
    rw [Decimal.ofNumeral_pointed hv.digits, Decimal.ofNumeral_pointed hw.digits] at h
    simpa [Decimal.Same, Decimal.numerator, Decimal.denominator] using h
  have hzero {part : List Char} (hpart : ∀ d ∈ part, isDigit d = true) (k : Nat) :
      ∀ d ∈ part ++ List.replicate k '0', isDigit d = true :=
    List.forall_mem_append.2 ⟨hpart, fun _ => isDigit_of_mem_zeros⟩
  obtain ⟨hwhole, hpart⟩ := ofDigitChars_append_inj (a := v) (b := w) (hzero hp q.length)
    (hzero hq p.length) (by simp [Nat.add_comm]) (by
      rw [← List.append_assoc, ← List.append_assoc, ofDigitChars_append_zeros,
        ofDigitChars_append_zeros, Nat.mul_comm, hvalue, Nat.mul_comm])
  have hvw : v = w := by
    rw [← hv.toDigits_ofDigitChars, hwhole, hw.toDigits_ofDigitChars]
  have hpq : p = q := by
    rw [← dropTrailingZeros_append_replicate hplast q.length, hpart,
      dropTrailingZeros_append_replicate hqlast]
  rw [hvw, hpq]

end Scratchpad
