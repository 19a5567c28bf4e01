set_option autoImplicit false

/-!
Binary floating point with 53 significant bits. A finite value is a whole number of the smallest
unit, 2^-1074, so that comparing values is comparing integers and rounding is one division.
-/

namespace HanaInsights

/-- The sign of a zero is kept because it is printed; comparison does not see it. -/
inductive Binary64 where
  | nan
  | infinity (negative : Bool)
  | finite (negative : Bool) (units : Nat)
  deriving DecidableEq, Repr

structure Decimal where
  negative : Bool
  coefficient : Nat
  exponent : Int
  deriving DecidableEq, Repr

namespace Binary64

def ratio (d : Decimal) : Nat × Nat :=
  if 0 ≤ d.exponent then (d.coefficient * Nat.pow 10 d.exponent.toNat * Nat.pow 2 1074, 1)
  else (d.coefficient * Nat.pow 2 1074, Nat.pow 10 (-d.exponent).toNat)

/-- The integer nearest to a quotient; a half goes to the even neighbour. -/
def roundQuotient (num den : Nat) : Nat :=
  let q := num / den
  let r := num % den
  if 2 * r < den then q
  else if den < 2 * r then q + 1
  else if q % 2 = 0 then q else q + 1

/-- From 2^53 on, neighbouring values lie `2 ^ spacing units` units apart. -/
def spacing (units : Nat) : Nat :=
  if units < Nat.pow 2 53 then 0 else units.log2 - 52

def overflow : Nat := Nat.pow 2 2098

def roundUnits (num den : Nat) : Nat :=
  let k := spacing (num / den)
  roundQuotient num (den * Nat.pow 2 k) * Nat.pow 2 k

def ofUnits (negative : Bool) (units : Nat) : Binary64 :=
  if overflow ≤ units then .infinity negative else .finite negative units

def digitCount (n : Nat) : Nat := (Nat.toDigits 10 n).length

/-- Rounds to nearest, ties to even. The two bounds only keep the powers of ten small: from 10^309
every decimal overflows, and below 10^-324 every decimal is under half a unit. -/
def ofDecimal (d : Decimal) : Binary64 :=
  let high := d.exponent + digitCount d.coefficient
  if d.coefficient = 0 then .finite d.negative 0
  else if 309 < high then .infinity d.negative
  else if high < -324 then .finite d.negative 0
  else ofUnits d.negative (roundUnits (ratio d).1 (ratio d).2)

def rank? : Binary64 → Option Int
  | .nan => none
  | .infinity true => some (-(overflow : Int))
  | .infinity false => some overflow
  | .finite true units => some (-(units : Int))
  | .finite false units => some units

def relates (r : Int → Int → Bool) (a b : Binary64) : Bool :=
  match a.rank?, b.rank? with
  | some x, some y => r x y
  | _, _ => false

def eq (a b : Binary64) : Bool := relates (fun x y => x == y) a b
def lt (a b : Binary64) : Bool := relates (fun x y => decide (x < y)) a b
def le (a b : Binary64) : Bool := relates (fun x y => decide (x ≤ y)) a b

end Binary64
end HanaInsights
