import Scratchpad.Number.Binary64

/-! Decimal numbers, the numerals that write them, and the double nearest to one. A numeral is a run
of digits, with at most one point inside it. -/
namespace Scratchpad

/-- The number `digits * 10 ^ exponent`. -/
structure Decimal where
  digits : Nat
  exponent : Int
  deriving DecidableEq

namespace Decimal

def numerator (d : Decimal) : Nat := d.digits * tenTo d.exponent.toNat

def denominator (d : Decimal) : Nat := tenTo (-d.exponent).toNat

theorem denominator_pos (d : Decimal) : 0 < d.denominator := tenTo_pos _

/-- Decimals that denote the same number. -/
def Same (d e : Decimal) : Prop := d.numerator * e.denominator = e.numerator * d.denominator

def ofNumeral (text : List Char) : Decimal :=
  let whole := text.takeWhile (· ≠ '.')
  let fraction := (text.dropWhile (· ≠ '.')).drop 1
  ⟨Nat.ofDigitChars 10 (whole ++ fraction) 0, -fraction.length⟩

end Decimal

namespace Binary64

def ofDecimal (negative : Bool) (d : Decimal) : Binary64 :=
  ofRatio negative (d.numerator * unit) d.denominator

end Binary64
end Scratchpad
