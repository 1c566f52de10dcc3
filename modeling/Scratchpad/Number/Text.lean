import Scratchpad.Number.Decimal

/-! The text of a number. It is the decimal with the fewest digits that reads back as the double: for
each number of digits there is a grid of powers of ten, and if any of its points reads back then one
of the two neighbours of the value does; of two that do, the nearer is taken, of two equally near
ones the even. The decimal is written positionally, without an exponent, and with no zero or point at
the end that could be left out. -/
namespace Scratchpad

/-! ## Shortest decimals -/

namespace Binary64

/-- One more than the exponent of the leading decimal digit of a positive quantity. -/
def leading (units : Nat) : Int :=
  (Nat.toDigits 10 (units * tenTo 324 / unit)).length - 324

def ReadsBack (units : Nat) (fits : Fits units) (d : Decimal) : Prop :=
  ofDecimal false d = .finite false units fits

instance (units : Nat) (fits : Fits units) (d : Decimal) : Decidable (ReadsBack units fits d) := by
  unfold ReadsBack; infer_instance

/-- The multiple of `10 ^ e` next to a quantity that reads back as it, if there is one. -/
def onGrid (units : Nat) (fits : Fits units) (e : Int) : Option Decimal :=
  let num := units * tenTo (-e).toNat
  let den := unit * tenTo e.toNat
  let lower : Decimal := ⟨num / den, e⟩
  let upper : Decimal := ⟨num / den + 1, e⟩
  if ReadsBack units fits lower then
    if ReadsBack units fits upper then some ⟨roundHalfEven num den, e⟩ else some lower
  else if ReadsBack units fits upper then some upper
  else none

def expansion (units : Nat) : Decimal := ⟨units * Nat.pow 5 1074, -1074⟩

/-- The decimal with the fewest digits that reads back, and among those the nearest. Seventeen
digits always suffice; without a hit the expansion is taken. -/
def shortest (units : Nat) (fits : Fits units) : Decimal :=
  ((List.range 17).findSome? fun n : Nat => onGrid units fits (leading units - (n + 1))).getD
    (expansion units)

theorem readsBack_of_onGrid {units : Nat} {fits : Fits units} {e : Int} {d : Decimal}
    (h : onGrid units fits e = some d) : ReadsBack units fits d := by
  unfold onGrid at h
  dsimp only at h
  split at h
  · next hl =>
    split at h
    · next hu =>
      cases h
      unfold roundHalfEven
      dsimp only
      split
      · exact hu
      · exact hl
    · cases h; exact hl
  · split at h
    · next hu => cases h; exact hu
    · cases h

end Binary64

/-! ## Numerals -/

def dropTrailingZeros (text : List Char) : List Char :=
  (text.reverse.dropWhile (· = '0')).reverse

namespace Decimal

def fraction (places digits : Nat) : List Char :=
  dropTrailingZeros (List.leftpad places '0' (Nat.toDigits 10 (digits % tenTo places)))

def numeral (d : Decimal) : List Char :=
  let whole := Nat.toDigits 10 (d.numerator / d.denominator)
  match fraction (-d.exponent).toNat d.digits with
  | [] => whole
  | places => whole ++ '.' :: places

end Decimal

namespace Binary64

def text : Binary64 → String
  | .nan => "NaN"
  | .infinite false => "inf"
  | .infinite true => "-inf"
  | .finite false units fits => String.ofList (shortest units fits).numeral
  | .finite true units fits => String.ofList ('-' :: (shortest units fits).numeral)

end Binary64

end Scratchpad
