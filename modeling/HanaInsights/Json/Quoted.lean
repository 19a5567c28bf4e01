import HanaInsights.Binary64.Operand
set_option autoImplicit false

/-!
JSON strings. The grammar admits any four hexadecimal digits in an escape, halves of surrogate pairs
among them; whether the pieces of a string make up a text is a second question.
-/

namespace HanaInsights.Json

def hexValue? (c : Char) : Option Nat :=
  if isDigit c then some (c.toNat - 48)
  else if 'a' ≤ c ∧ c ≤ 'f' then some (c.toNat - 87)
  else if 'A' ≤ c ∧ c ≤ 'F' then some (c.toNat - 55)
  else none

def hex4? (a b c d : Char) : Option Nat := do
  let a ← hexValue? a
  let b ← hexValue? b
  let c ← hexValue? c
  let d ← hexValue? d
  some (a * 4096 + b * 256 + c * 16 + d)

def simpleEscape? : Char → Option Char
  | '"' => some '"'
  | '\\' => some '\\'
  | '/' => some '/'
  | 'b' => some '\x08'
  | 'f' => some '\x0c'
  | 'n' => some '\n'
  | 'r' => some '\r'
  | 't' => some '\t'
  | _ => none

/-- A piece of a string: a character, or a 16-bit unit written as four digits. -/
inductive Piece where
  | char (c : Char)
  | unit (n : Nat)
  deriving DecidableEq, Repr

def pieces? : List Char → Option (List Piece × List Char)
  | [] => none
  | '"' :: rest => some ([], rest)
  | '\\' :: 'u' :: a :: b :: c :: d :: rest => do
    let n ← hex4? a b c d
    let (ps, rest) ← pieces? rest
    some (.unit n :: ps, rest)
  | '\\' :: e :: rest => do
    let c ← simpleEscape? e
    let (ps, rest) ← pieces? rest
    some (.char c :: ps, rest)
  | c :: rest =>
    if c.toNat < 0x20 ∨ c = '\\' then none
    else do
      let (ps, rest) ← pieces? rest
      some (.char c :: ps, rest)

def isHigh (n : Nat) : Bool := 0xD800 ≤ n && n < 0xDC00

def isLow (n : Nat) : Bool := 0xDC00 ≤ n && n < 0xE000

def joined (high low : Nat) : Char :=
  Char.ofNat (0x10000 + (high - 0xD800) * 0x400 + (low - 0xDC00))

/-- A high surrogate takes the low one after it; alone, either is no character. -/
def chars? : List Piece → Option (List Char)
  | [] => some []
  | .char c :: ps => (chars? ps).map (c :: ·)
  | .unit high :: .unit low :: ps =>
    if isHigh high then
      if isLow low then (chars? ps).map (joined high low :: ·) else none
    else if isLow high then none
    else (chars? (.unit low :: ps)).map (Char.ofNat high :: ·)
  | .unit n :: ps =>
    if isHigh n || isLow n then none else (chars? ps).map (Char.ofNat n :: ·)

def text? (ps : List Piece) : Option String := (chars? ps).map String.ofList

end HanaInsights.Json
