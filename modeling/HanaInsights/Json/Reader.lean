import HanaInsights.Binary64.Scaled
import HanaInsights.Json.Basic
import HanaInsights.Json.Quoted
set_option autoImplicit false

/-!
Reading JSON text. The grammar is the strict one: no comments, no trailing commas, no bare control
characters, and nothing after the value. The grammar also admits what no value holds: numbers that
are not finite, halves of surrogate pairs, arrays and objects nested too deep. A document with such
a thing in it is refused, or the thing is passed over and null stands in its place.
-/

namespace HanaInsights.Json

def isSpace (c : Char) : Bool := c == ' ' || c == '\t' || c == '\n' || c == '\r'

def skipSpace (cs : List Char) : List Char := cs.dropWhile isSpace

/-- The integers that 64 bits hold, signed or unsigned. A negative zero is no integer. -/
def integer? (negative : Bool) (n : Nat) : Option Int :=
  if negative then if 0 < n ∧ n ≤ 9223372036854775808 then some (-(n : Int)) else none
  else if n ≤ 18446744073709551615 then some n else none

def wholeDigits? (cs : List Char) : Option (List Char × List Char) :=
  let ds := cs.takeWhile isDigit
  match ds with
  | [] => none
  | ['0'] => some (ds, cs.dropWhile isDigit)
  | '0' :: _ => none
  | _ => some (ds, cs.dropWhile isDigit)

def fraction? : List Char → Option (List Char × List Char)
  | '.' :: rest =>
    let ds := rest.takeWhile isDigit
    if ds.isEmpty then none else some (ds, rest.dropWhile isDigit)
  | rest => some ([], rest)

def exponentSign : List Char → Bool × List Char
  | '-' :: rest => (true, rest)
  | '+' :: rest => (false, rest)
  | rest => (false, rest)

def exponent? : List Char → Option (Option Int × List Char)
  | c :: rest =>
    if c = 'e' ∨ c = 'E' then
      let (negative, rest) := exponentSign rest
      let ds := rest.takeWhile isDigit
      if ds.isEmpty then none
      else
        let n : Int := digitsValue ds
        some (some (if negative then -n else n), rest.dropWhile isDigit)
    else some (none, c :: rest)
  | [] => some (none, [])

def unsignedNumber? (instead : Option Json) (negative : Bool) (cs : List Char) :
    Option (Json × List Char) := do
  let (whole, rest) ← wholeDigits? cs
  let (fraction, rest) ← fraction? rest
  let (exponent, rest) ← exponent? rest
  match fraction, exponent, integer? negative (digitsValue whole) with
  | [], none, some n => some (.integer n, rest)
  | _, _, _ =>
    let real := Binary64.ofScaledDigits? negative whole fraction (exponent.getD 0)
    let value ← (real.map Json.real).orElse fun _ => instead
    some (value, rest)

def number? (instead : Option Json) : List Char → Option (Json × List Char)
  | '-' :: cs => unsignedNumber? instead true cs
  | cs => unsignedNumber? instead false cs

def scalar? (instead : Option Json) : List Char → Option (Json × List Char)
  | 'n' :: 'u' :: 'l' :: 'l' :: rest => some (.null, rest)
  | 't' :: 'r' :: 'u' :: 'e' :: rest => some (.bool true, rest)
  | 'f' :: 'a' :: 'l' :: 's' :: 'e' :: rest => some (.bool false, rest)
  | '"' :: rest => do
    let (ps, rest) ← pieces? rest
    let value ← ((text? ps).map Json.string).orElse fun _ => instead
    some (value, rest)
  | cs => number? instead cs

/-- What is open around a place that is passed over. -/
inductive Enclosure where
  | array
  | object
  deriving DecidableEq, Repr

def afterName? : List Char → Option (List Char)
  | '"' :: rest => do
    let (_, rest) ← pieces? rest
    match skipSpace rest with
    | ':' :: rest => some (skipSpace rest)
    | _ => none
  | _ => none

/-- Passes over a value, or over what follows one, until nothing is open any more. What is open is
kept in a list, so any depth will do. -/
def passOver : Nat → Bool → List Enclosure → List Char → Option (List Char)
  | 0, _, _, _ => none
  | _ + 1, true, [], cs => some cs
  | fuel + 1, true, .array :: open_, cs =>
    match skipSpace cs with
    | ']' :: rest => passOver fuel true open_ rest
    | ',' :: rest => passOver fuel false (.array :: open_) (skipSpace rest)
    | _ => none
  | fuel + 1, true, .object :: open_, cs =>
    match skipSpace cs with
    | '}' :: rest => passOver fuel true open_ rest
    | ',' :: rest =>
      match afterName? (skipSpace rest) with
      | some rest => passOver fuel false (.object :: open_) rest
      | none => none
    | _ => none
  | fuel + 1, false, open_, '[' :: rest =>
    match skipSpace rest with
    | ']' :: rest => passOver fuel true open_ rest
    | rest => passOver fuel false (.array :: open_) rest
  | fuel + 1, false, open_, '{' :: rest =>
    match skipSpace rest with
    | '}' :: rest => passOver fuel true open_ rest
    | rest =>
      match afterName? rest with
      | some rest => passOver fuel false (.object :: open_) rest
      | none => none
  | fuel + 1, false, open_, cs =>
    match scalar? (some .null) cs with
    | some (_, rest) => passOver fuel true open_ rest
    | none => none

/-- Each step but the last passes at least one character, so the length is fuel enough. -/
def afterValue? (cs : List Char) : Option (List Char) := passOver (cs.length + 1) false [] cs

def itemsAfter (value : List Char → Option (Json × List Char)) :
    Nat → List Char → Option (List Json × List Char)
  | 0, _ => none
  | fuel + 1, cs =>
    match skipSpace cs with
    | ']' :: rest => some ([], rest)
    | ',' :: rest => do
      let (item, rest) ← value (skipSpace rest)
      let (items, rest) ← itemsAfter value fuel rest
      some (item :: items, rest)
    | _ => none

def items (value : List Char → Option (Json × List Char)) (cs : List Char) :
    Option (List Json × List Char) :=
  match skipSpace cs with
  | ']' :: rest => some ([], rest)
  | cs => do
    let (item, rest) ← value cs
    let (items, rest) ← itemsAfter value (rest.length + 1) rest
    some (item :: items, rest)

/-- A member; it has no name if the pieces of its name are no text. -/
def memberAt (value : List Char → Option (Json × List Char)) (cs : List Char) :
    Option ((Option String × Json) × List Char) :=
  match cs with
  | '"' :: rest => do
    let (ps, rest) ← pieces? rest
    match skipSpace rest with
    | ':' :: rest => do
      let (item, rest) ← value (skipSpace rest)
      some ((text? ps, item), rest)
    | _ => none
  | _ => none

def membersAfter (value : List Char → Option (Json × List Char)) :
    Nat → List Char → Option (List (Option String × Json) × List Char)
  | 0, _ => none
  | fuel + 1, cs =>
    match skipSpace cs with
    | '}' :: rest => some ([], rest)
    | ',' :: rest => do
      let (item, rest) ← memberAt value (skipSpace rest)
      let (items, rest) ← membersAfter value fuel rest
      some (item :: items, rest)
    | _ => none

def members (value : List Char → Option (Json × List Char)) (cs : List Char) :
    Option (List (Option String × Json) × List Char) :=
  match skipSpace cs with
  | '}' :: rest => some ([], rest)
  | cs => do
    let (item, rest) ← memberAt value cs
    let (items, rest) ← membersAfter value (rest.length + 1) rest
    some (item :: items, rest)

def object? (ms : List (Option String × Json)) : Option Json := do
  let named ← ms.mapM fun (name, value) => name.map fun name => (name, value)
  some (.object named)

def valueAt (instead : Option Json) : Nat → List Char → Option (Json × List Char)
  | depth + 1, '[' :: rest =>
    (items (valueAt instead depth) rest).map fun (xs, rest) => (.array xs, rest)
  | depth + 1, '{' :: rest => do
    let (ms, rest) ← members (valueAt instead depth) rest
    let value ← (object? ms).orElse fun _ => instead
    some (value, rest)
  | 0, '[' :: rest => do
    let rest ← afterValue? ('[' :: rest)
    instead.map (·, rest)
  | 0, '{' :: rest => do
    let rest ← afterValue? ('{' :: rest)
    instead.map (·, rest)
  | _, cs => scalar? instead cs

def depthLimit : Nat := 127

def readChars? (instead : Option Json) (cs : List Char) : Option Json :=
  match valueAt instead depthLimit (skipSpace cs) with
  | some (value, rest) => if (skipSpace rest).isEmpty then some value else none
  | none => none

def read? (text : String) : Option Json := readChars? none text.toList

/-- Reads null where a document has something that no value holds. For documents in which null has
no meaning of its own: such a thing then does no harm in members that nobody looks at, and only
there. -/
def readPart? (text : String) : Option Json := readChars? (some .null) text.toList

end HanaInsights.Json
