import HanaInsights.Binary64.Operand
set_option autoImplicit false

/-!
Decimals read by scaling. The leading digits that 64 bits hold make a number, which is rounded and
then multiplied or divided by a power of ten, each step rounded on its own. The result is the
nearest value for up to fifteen digits and small exponents, and may be its neighbour beyond.
-/

namespace HanaInsights.Binary64

def unitsOfOne : Nat := Nat.pow 2 1074

def ofWhole (n : Nat) : Nat := roundUnits (n * unitsOfOne) 1

def product (a b : Nat) : Nat := roundUnits (a * b) unitsOfOne

def quotient (a b : Nat) : Nat := roundUnits (a * unitsOfOne) b

def largestPower : Nat := 308

def powerOfTen (k : Nat) : Nat := ofWhole (Nat.pow 10 k)

/-- Scales a magnitude by a power of ten; none if it becomes infinite. -/
def scaled? (units : Nat) (exponent : Int) : Option Nat :=
  if 0 ≤ exponent then
    if units = 0 then some 0
    else if (largestPower : Int) < exponent then none
    else
      let scaled := product units (powerOfTen exponent.toNat)
      if overflow ≤ scaled then none else some scaled
  else if -(largestPower : Int) ≤ exponent then
    some (quotient units (powerOfTen (-exponent).toNat))
  else if units = 0 then some 0
  else scaled? (quotient units (powerOfTen largestPower)) (exponent + largestPower)
termination_by (-exponent).toNat
decreasing_by simp only [largestPower] at *; omega

def appendDigits : Nat → List Char → Nat × List Char
  | n, [] => (n, [])
  | n, c :: cs =>
    if 10 * n + digitValue c ≤ 18446744073709551615 then appendDigits (10 * n + digitValue c) cs
    else (n, c :: cs)

/-- Digits that are left over before the point count as zeros, those behind it not at all. -/
def ofScaledDigits? (negative : Bool) (whole fraction : List Char) (exponent : Int) :
    Option Binary64 :=
  let (n, wholeLeft) := appendDigits 0 whole
  let (n, fractionLeft) := appendDigits n fraction
  let passed : Int := fraction.length - fractionLeft.length
  (scaled? (ofWhole n) (exponent + wholeLeft.length - passed)).map (.finite negative)

end HanaInsights.Binary64
