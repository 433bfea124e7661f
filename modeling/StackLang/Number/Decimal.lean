import StackLang.Number.Double

/-! Decimal numbers `digits · 10^exponent` and the double nearest to one. Exponents far outside the
range of doubles are answered at once, without the power of ten. -/

namespace StackLang

structure Decimal where
  digits : Nat
  exponent : Int
deriving DecidableEq

namespace Decimal

/-- The magnitude in steps as a quotient of whole numbers. -/
def numerator (d : Decimal) : Nat := d.digits * Nat.pow 10 d.exponent.toNat * oneSteps

def denominator (d : Decimal) : Nat := Nat.pow 10 (-d.exponent).toNat

/-- Beyond every double. -/
def isHuge (d : Decimal) : Bool := decide (0 < d.digits) && decide (400 ≤ d.exponent)

/-- Below half a step. -/
def isTiny (d : Decimal) : Bool :=
  decide (d.digits = 0) || decide ((d.digits.log2 : Int) + 1080 ≤ 3 * -d.exponent)

def toDouble (negative : Bool) (d : Decimal) : Double :=
  if d.isTiny then .finite negative 0 held_zero
  else if d.isHuge then .infinite negative
  else .round negative d.numerator d.denominator

/-- Drops zeros at the end of the digits; the count bounds their number. -/
def dropZeros : Nat → Decimal → Decimal
  | 0, d => d
  | n + 1, d =>
    if d.digits % 10 = 0 ∧ d.digits ≠ 0 then dropZeros n ⟨d.digits / 10, d.exponent + 1⟩ else d

def normal (d : Decimal) : Decimal := dropZeros d.digits.log2 d

end Decimal

end StackLang
