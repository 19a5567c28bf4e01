import HanaInsights.Binary64
set_option autoImplicit false

/-!
The shortest decimal that reads back as a given value, and its text: positional from 10^-5 up to
but not including 10^16, scientific with a signed exponent outside that range.
-/

namespace HanaInsights.Binary64

/-- A quarter-unit interval: all reals strictly inside round to the value, the ends too when the
significand is even. Below a power of two the neighbour is half as far away. -/
structure Interval where
  low : Nat
  high : Nat
  closed : Bool

def interval (units : Nat) : Interval :=
  let k := spacing units
  let m := units / Nat.pow 2 k
  let below := if m = Nat.pow 2 52 ∧ 0 < k then Nat.pow 2 k else 2 * Nat.pow 2 k
  ⟨4 * units - below, 4 * units + 2 * Nat.pow 2 k, m % 2 == 0⟩

/-- The coefficient `c` stands for `c · 10 ^ p`, whose quarter units are `c · num / den`. -/
def Interval.holds (i : Interval) (num den c : Nat) : Bool :=
  if i.closed then i.low * den ≤ c * num && c * num ≤ i.high * den
  else i.low * den < c * num && c * num < i.high * den

def scale (p : Int) : Nat × Nat :=
  if 0 ≤ p then (Nat.pow 10 p.toNat * Nat.pow 2 1076, 1)
  else (Nat.pow 2 1076, Nat.pow 10 (-p).toNat)

def leadingExponent (units : Nat) : Int :=
  (digitCount (units * Nat.pow 10 330 / Nat.pow 2 1074) : Int) - 331

/-- The two neighbours of the value on a decimal grid are the only candidates of that grid; of two
hits the nearer one is taken, of two equally near ones the even one. -/
def gridPoint? (units : Nat) (p : Int) : Option Nat :=
  let i := interval units
  let (num, den) := scale p
  let c := 4 * units * den / num
  let near := 4 * units * den - c * num
  let far := (c + 1) * num - 4 * units * den
  match i.holds num den c, i.holds num den (c + 1) with
  | true, true =>
    if near < far then some c else if far < near then some (c + 1)
    else some (if c % 2 = 0 then c else c + 1)
  | true, false => some c
  | false, true => some (c + 1)
  | false, false => none

/-- Seventeen digits always suffice; the first grid with a hit has the fewest. -/
def shortestFrom (units : Nat) (e : Int) : Nat → Nat → Nat × Int
  | 0, _ => (units, 0)
  | n + 1, digits =>
    let p := e - digits
    match gridPoint? units p with
    | some c => (c, p)
    | none => shortestFrom units e n (digits + 1)

def dropZeros (c : Nat) (p : Int) : Nat → Nat × Int
  | 0 => (c, p)
  | n + 1 => if c % 10 = 0 ∧ c ≠ 0 then dropZeros (c / 10) (p + 1) n else (c, p)

def shortest (units : Nat) : List Char × Int :=
  let (c, p) := shortestFrom units (leadingExponent units) 17 0
  let (c, p) := dropZeros c p 400
  (Nat.toDigits 10 c, p)

def positional (leading : Int) : Bool := -5 ≤ leading && leading < 16

def layout (digits : List Char) (last : Int) : List Char :=
  let leading := last + digits.length - 1
  if positional leading then
    if leading < 0 then
      ['0', '.'] ++ List.replicate (-leading - 1).toNat '0' ++ digits
    else if 0 ≤ last then
      digits ++ List.replicate last.toNat '0' ++ ['.', '0']
    else
      digits.take (leading.toNat + 1) ++ '.' :: digits.drop (leading.toNat + 1)
  else
    digits.take 1 ++ (if digits.length = 1 then [] else '.' :: digits.drop 1) ++
      ['e', if leading < 0 then '-' else '+'] ++ Nat.toDigits 10 leading.natAbs

def chars : Binary64 → List Char
  | .nan => ['n', 'a', 'n']
  | .infinity negative => (if negative then ['-'] else []) ++ ['i', 'n', 'f']
  | .finite negative units =>
    (if negative then ['-'] else []) ++
      if units = 0 then ['0', '.', '0'] else layout (shortest units).1 (shortest units).2

def text (x : Binary64) : String := String.ofList x.chars

end HanaInsights.Binary64
