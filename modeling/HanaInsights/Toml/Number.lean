import HanaInsights.Toml.Lexeme
set_option autoImplicit false

namespace HanaInsights.Toml

def groupedTail (isDigit : Char → Bool) : List Char → Option (List Char × List Char)
  | '_' :: c :: rest =>
    if isDigit c then cons? c (groupedTail isDigit rest) else none
  | c :: rest => if isDigit c then cons? c (groupedTail isDigit rest) else some ([], c :: rest)
  | [] => some ([], [])

def grouped? (isDigit : Char → Bool) : List Char → Option (List Char × List Char)
  | c :: rest => if isDigit c then cons? c (groupedTail isDigit rest) else none
  | [] => none

def wholePart? : List Char → Option (List Char × List Char)
  | '0' :: rest => some (['0'], rest)
  | cs => grouped? isDigit cs

def sign : List Char → Bool × List Char
  | '-' :: rest => (true, rest)
  | '+' :: rest => (false, rest)
  | cs => (false, cs)

def isInt64 (i : Int) : Bool := -9223372036854775808 ≤ i && i ≤ 9223372036854775807

def int64? (i : Int) : Option Toml := if isInt64 i then some (.integer i) else none

def basedValue (base : Nat) (ds : List Char) : Nat :=
  ds.foldl (fun n c => n * base + (Json.hexValue? c).getD 0) 0

def based? (base : Nat) (isDigit : Char → Bool) (cs : List Char) : Option (Toml × List Char) := do
  let (ds, rest) ← grouped? isDigit cs
  let v ← int64? (basedValue base ds)
  some (v, rest)

def decimalInteger? (cs : List Char) : Option (Toml × List Char) := do
  let (negative, cs) := sign cs
  let (ds, rest) ← wholePart? cs
  let n : Int := digitsValue ds
  let v ← int64? (if negative then -n else n)
  some (v, rest)

def integer? : List Char → Option (Toml × List Char)
  | '0' :: 'x' :: rest => based? 16 (fun c => (Json.hexValue? c).isSome) rest
  | '0' :: 'o' :: rest => based? 8 (fun c => '0' ≤ c && c ≤ '7') rest
  | '0' :: 'b' :: rest => based? 2 (fun c => c == '0' || c == '1') rest
  | cs => decimalInteger? cs

def exponentPart? : List Char → Option (Int × List Char)
  | c :: rest =>
    if c = 'e' ∨ c = 'E' then do
      let (negative, rest) := sign rest
      let (ds, rest) ← grouped? isDigit rest
      let n : Int := digitsValue ds
      some (if negative then -n else n, rest)
    else none
  | [] => none

/-- A float has a fraction, an exponent or both; it may not overflow upwards. -/
def decimalFloat? (negative : Bool) (cs : List Char) : Option (Toml × List Char) := do
  let (whole, rest) ← wholePart? cs
  let finish (fraction : List Char) (exponent : Int) (rest : List Char) :=
    match Binary64.ofDecimal (Decimal.ofDigits negative whole fraction exponent) with
    | .infinity false => none
    | x => some (Toml.float x, rest)
  match rest with
  | '.' :: rest => do
    let (fraction, rest) ← grouped? isDigit rest
    match exponentPart? rest with
    | some (exponent, rest) => finish fraction exponent rest
    | none => finish fraction 0 rest
  | rest => do
    let (exponent, rest) ← exponentPart? rest
    finish [] exponent rest

def float? (cs : List Char) : Option (Toml × List Char) :=
  let (negative, cs) := sign cs
  match cs with
  | 'i' :: 'n' :: 'f' :: rest => some (.float (.infinity negative), rest)
  | 'n' :: 'a' :: 'n' :: rest => some (.float .nan, rest)
  | cs => decimalFloat? negative cs

def digits? (n : Nat) (cs : List Char) : Option (Nat × List Char) :=
  let ds := cs.take n
  if ds.length = n ∧ ds.all isDigit then some (digitsValue ds, cs.drop n) else none

def daysIn (year month : Nat) : Nat :=
  if month = 2 then
    if year % 4 = 0 ∧ (year % 100 ≠ 0 ∨ year % 400 = 0) then 29 else 28
  else if month = 4 ∨ month = 6 ∨ month = 9 ∨ month = 11 then 30
  else 31

def expect? (c : Char) : List Char → Option (List Char)
  | d :: rest => if d = c then some rest else none
  | [] => none

def pad (width n : Nat) : List Char :=
  let ds := Nat.toDigits 10 n
  List.replicate (width - ds.length) '0' ++ ds

def date? (cs : List Char) : Option (List Char × List Char) := do
  let (year, rest) ← digits? 4 cs
  let rest ← expect? '-' rest
  let (month, rest) ← digits? 2 rest
  let rest ← expect? '-' rest
  let (day, rest) ← digits? 2 rest
  if 1 ≤ month ∧ month ≤ 12 ∧ 1 ≤ day ∧ day ≤ daysIn year month then
    some (pad 4 year ++ '-' :: pad 2 month ++ '-' :: pad 2 day, rest)
  else none

/-- Nine digits of a fraction count; zeros at its end are not written. -/
def secondFraction? : List Char → Option (List Char × List Char)
  | '.' :: rest =>
    let ds := rest.takeWhile isDigit
    if ds.isEmpty then none
    else
      let kept := ((ds.take 9).reverse.dropWhile (· == '0')).reverse
      some (if kept.isEmpty then [] else '.' :: kept, rest.dropWhile isDigit)
  | rest => some ([], rest)

def time? (cs : List Char) : Option (List Char × List Char) := do
  let (hour, rest) ← digits? 2 cs
  let rest ← expect? ':' rest
  let (minute, rest) ← digits? 2 rest
  let rest ← expect? ':' rest
  let (second, rest) ← digits? 2 rest
  let (fraction, rest) ← secondFraction? rest
  if hour < 24 ∧ minute < 60 ∧ second ≤ 60 then
    some (pad 2 hour ++ ':' :: pad 2 minute ++ ':' :: pad 2 second ++ fraction, rest)
  else none

def numericOffset? (mark : Char) (cs : List Char) : Option (List Char × List Char) := do
  let (hour, rest) ← digits? 2 cs
  let rest ← expect? ':' rest
  let (minute, rest) ← digits? 2 rest
  let mark := if hour = 0 ∧ minute = 0 then '+' else mark
  if hour < 24 ∧ minute < 60 then some (mark :: pad 2 hour ++ ':' :: pad 2 minute, rest) else none

def offset? : List Char → Option (List Char × List Char)
  | 'Z' :: rest => some (['Z'], rest)
  | 'z' :: rest => some (['Z'], rest)
  | '+' :: rest => numericOffset? '+' rest
  | '-' :: rest => numericOffset? '-' rest
  | rest => some ([], rest)

/-- The time that may follow a date; a blank counts as the mark only if a time comes after it. -/
def timeAfterDate? (date rest : List Char) : Option (List Char × List Char) :=
  match rest with
  | c :: tail =>
    if c = 'T' ∨ c = 't' then do
      let (time, rest) ← time? tail
      let (offset, rest) ← offset? rest
      some (date ++ 'T' :: time ++ offset, rest)
    else if c = ' ' then
      match time? tail with
      | some (time, rest) => do
        let (offset, rest) ← offset? rest
        some (date ++ 'T' :: time ++ offset, rest)
      | none => some (date, rest)
    else some (date, rest)
  | [] => some (date, [])

def datetime? (cs : List Char) : Option (Toml × List Char) := do
  let (text, rest) ←
    match date? cs with
    | some (date, rest) => timeAfterDate? date rest
    | none => time? cs
  some (.datetime (String.ofList text), rest)

def number? (cs : List Char) : Option (Toml × List Char) :=
  match datetime? cs with
  | some found => some found
  | none =>
    match float? cs with
    | some found => some found
    | none => integer? cs

end HanaInsights.Toml
