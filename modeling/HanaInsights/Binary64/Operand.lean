import HanaInsights.Binary64
set_option autoImplicit false

/-!
Numbers written as operand text: an optional sign, then a word for infinity or not-a-number in any
letter case, or digits with an optional point and exponent. Nothing may stand before or after.
-/

namespace HanaInsights

def isDigit (c : Char) : Bool := '0' ≤ c && c ≤ '9'

def digitValue (c : Char) : Nat := c.toNat - '0'.toNat

def digitsValue (ds : List Char) : Nat := ds.foldl (fun n c => 10 * n + digitValue c) 0

@[simp] theorem digitsValue_nil : digitsValue [] = 0 := rfl

def natural? (cs : List Char) : Option Nat :=
  if cs.isEmpty || !cs.all isDigit then none else some (digitsValue cs)

def signedNatural? : List Char → Option Int
  | '-' :: cs => (natural? cs).map fun n => -(n : Int)
  | '+' :: cs => (natural? cs).map fun n => (n : Int)
  | cs => (natural? cs).map fun n => (n : Int)

namespace Decimal

def ofDigits (negative : Bool) (whole fraction : List Char) (exponent : Int) : Decimal :=
  ⟨negative, digitsValue (whole ++ fraction), exponent - fraction.length⟩

def exponent? : List Char → Option Int
  | [] => some 0
  | c :: cs => if c = 'e' ∨ c = 'E' then signedNatural? cs else none

/-- One side of the point may be left without digits, not both. -/
def unsigned? (negative : Bool) (cs : List Char) : Option Decimal :=
  let whole := cs.takeWhile isDigit
  match cs.dropWhile isDigit with
  | '.' :: rest =>
    let fraction := rest.takeWhile isDigit
    if whole.isEmpty && fraction.isEmpty then none
    else (exponent? (rest.dropWhile isDigit)).map (ofDigits negative whole fraction)
  | rest =>
    if whole.isEmpty then none
    else (exponent? rest).map (ofDigits negative whole [])

end Decimal

namespace Binary64

def magnitude? (negative : Bool) (cs : List Char) : Option Binary64 :=
  let word := cs.map Char.toLower
  if word = ['i', 'n', 'f'] ∨ word = ['i', 'n', 'f', 'i', 'n', 'i', 't', 'y'] then
    some (.infinity negative)
  else if word = ['n', 'a', 'n'] then some .nan
  else (Decimal.unsigned? negative cs).map ofDecimal

def parseChars? : List Char → Option Binary64
  | '-' :: cs => magnitude? true cs
  | '+' :: cs => magnitude? false cs
  | cs => magnitude? false cs

def parse? (text : String) : Option Binary64 := parseChars? text.toList

end Binary64
end HanaInsights
