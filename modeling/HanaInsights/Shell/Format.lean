import HanaInsights.Text.Utf8
set_option autoImplicit false

namespace HanaInsights.Shell.Format

def octalValue (cs : List Char) : Nat :=
  cs.foldl (fun n c => 8 * n + (c.toNat - '0'.toNat)) 0

def isOctal (c : Char) : Bool := '0' ≤ c && c ≤ '7'

def octal (most : Nat) (cs : List Char) : UInt8 × List Char :=
  let digits := (cs.take most).takeWhile isOctal
  ((octalValue digits).toUInt8, cs.drop digits.length)

def utf8 (c : Char) : List UInt8 := Utf8.encode c.toString

def letterEscape? : Char → Option UInt8
  | 'a' => some 7
  | 'b' => some 8
  | 'f' => some 12
  | 'n' => some 10
  | 'r' => some 13
  | 't' => some 9
  | 'v' => some 11
  | '\\' => some 0x5C
  | _ => none

/-- One escape after its backslash; in an argument a leading zero is not counted as a digit. -/
def escape (inArgument : Bool) : List Char → List UInt8 × List Char
  | [] => ([0x5C], [])
  | c :: cs =>
    match letterEscape? c with
    | some b => ([b], cs)
    | none =>
      if c = '0' && inArgument then
        let (b, rest) := octal 3 cs
        ([b], rest)
      else if isOctal c then
        let (b, rest) := octal 3 (c :: cs)
        ([b], rest)
      else if c = '"' then ([0x22], cs)
      else (0x5C :: utf8 c, cs)

def unescape : Nat → List Char → List UInt8 × Bool
  | 0, _ => ([], false)
  | _ + 1, [] => ([], false)
  | _ + 1, '\\' :: 'c' :: _ => ([], true)
  | fuel + 1, '\\' :: cs =>
    let (bytes, rest) := escape true cs
    let (more, stop) := unescape fuel rest
    (bytes ++ more, stop)
  | fuel + 1, c :: cs =>
    let (more, stop) := unescape fuel cs
    (utf8 c ++ more, stop)

def unescapeText (text : String) : List UInt8 × Bool := unescape (text.length + 1) text.toList

inductive Item where
  | bytes (bytes : List UInt8)
  | value (left zero : Bool) (width : Nat) (precision : Option Nat) (conversion : Char)

def decimal (cs : List Char) : Nat :=
  cs.foldl (fun n c => 10 * n + (c.toNat - '0'.toNat)) 0

def conversion (cs : List Char) : Item × List Char :=
  let flags := cs.takeWhile fun c => c == '-' || c == '0' || c == ' ' || c == '+'
  let cs := cs.drop flags.length
  let width := cs.takeWhile Char.isDigit
  let cs := cs.drop width.length
  let (precision, cs) : Option Nat × List Char :=
    match cs with
    | '.' :: cs =>
      (some (decimal (cs.takeWhile Char.isDigit)), cs.dropWhile Char.isDigit)
    | cs => (none, cs)
  match cs with
  | '%' :: rest => (.bytes [0x25], rest)
  | c :: rest =>
    (.value (flags.contains '-') (flags.contains '0') (decimal width) precision c, rest)
  | [] => (.bytes [0x25], [])

def items : Nat → List Char → List Item
  | 0, _ => []
  | _ + 1, [] => []
  | fuel + 1, '%' :: cs =>
    let (item, rest) := conversion cs
    item :: items fuel rest
  | fuel + 1, '\\' :: cs =>
    let (bytes, rest) := escape false cs
    .bytes bytes :: items fuel rest
  | fuel + 1, c :: cs => .bytes (utf8 c) :: items fuel cs

def ofText (format : String) : List Item := items (format.length + 1) format.toList

def padded (left : Bool) (fill : UInt8) (width : Nat) (bytes : List UInt8) : List UInt8 :=
  let padding := List.replicate (width - bytes.length) fill
  if left then bytes ++ padding else padding ++ bytes

/-- A number as an argument gives it: nothing is zero, a quote stands for the next character. -/
def integer? (text : String) : Option Int :=
  match text.toList with
  | [] => some 0
  | '\x27' :: c :: _ => some (c.toNat : Int)
  | '"' :: c :: _ => some (c.toNat : Int)
  | '-' :: cs => if cs.isEmpty || !cs.all Char.isDigit then none else some (-(decimal cs : Int))
  | '+' :: cs => if cs.isEmpty || !cs.all Char.isDigit then none else some (decimal cs : Int)
  | cs => if cs.all Char.isDigit then some (decimal cs : Int) else none

def convert (left zero : Bool) (width : Nat) (precision : Option Nat) (conversion : Char)
    (argument : String) : List UInt8 × Bool × Bool :=
  let cut (bytes : List UInt8) : List UInt8 :=
    match precision with
    | some n => bytes.take n
    | none => bytes
  let number (text : Int → String) : List UInt8 × Bool × Bool :=
    let value := integer? argument
    let bytes := Utf8.encode (text (value.getD 0))
    (padded left (if zero && !left then 0x30 else 0x20) width bytes, false, value.isSome)
  match conversion with
  | 's' => (padded left 0x20 width (cut (Utf8.encode argument)), false, true)
  | 'b' =>
    let (bytes, stop) := unescapeText argument
    (padded left 0x20 width (cut bytes), stop, true)
  | 'c' => (padded left 0x20 width ((Utf8.encode argument).take 1), false, true)
  | 'd' | 'i' | 'u' => number toString
  | 'o' => number fun n => String.ofList (Nat.toDigits 8 n.toNat)
  | 'x' => number fun n => String.ofList (Nat.toDigits 16 n.toNat)
  | 'X' => number fun n => String.ofList ((Nat.toDigits 16 n.toNat).map Char.toUpper)
  | c => (0x25 :: utf8 c, false, false)

structure Printed where
  bytes : List UInt8
  rest : List String
  stopped : Bool
  sound : Bool

def pass : List Item → List String → Printed
  | [], arguments => ⟨[], arguments, false, true⟩
  | .bytes bytes :: more, arguments =>
    let p := pass more arguments
    { p with bytes := bytes ++ p.bytes }
  | .value left zero width precision c :: more, arguments =>
    let (bytes, stop, sound) := convert left zero width precision c (arguments.headD "")
    if stop then ⟨bytes, [], true, sound⟩
    else
      let p := pass more (arguments.drop 1)
      { p with bytes := bytes ++ p.bytes, sound := sound && p.sound }

/-- The passes over a format until the arguments are used up. -/
def passes (format : List Item) : Nat → List String → List UInt8 × Bool
  | 0, _ => ([], true)
  | fuel + 1, arguments =>
    let p := pass format arguments
    if p.stopped || p.rest.isEmpty || p.rest.length == arguments.length then (p.bytes, p.sound)
    else
      let (more, sound) := passes format fuel p.rest
      (p.bytes ++ more, p.sound && sound)

def print (format : String) (arguments : List String) : List UInt8 × Bool :=
  passes (ofText format) (arguments.length + 1) arguments

end HanaInsights.Shell.Format
