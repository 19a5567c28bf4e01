import HanaInsights.Json.Basic
import HanaInsights.Binary64.Shortest
set_option autoImplicit false

namespace HanaInsights.Json

def hexDigit (n : Nat) : Char :=
  if n < 10 then Char.ofNat (n + 48) else Char.ofNat (n + 87)

def escapeChar (c : Char) : List Char :=
  match c with
  | '"' => ['\\', '"']
  | '\\' => ['\\', '\\']
  | '\x08' => ['\\', 'b']
  | '\t' => ['\\', 't']
  | '\n' => ['\\', 'n']
  | '\x0c' => ['\\', 'f']
  | '\r' => ['\\', 'r']
  | c =>
    if c.toNat < 0x20 then
      ['\\', 'u', '0', '0', hexDigit (c.toNat / 16), hexDigit (c.toNat % 16)]
    else [c]

def quoted (s : String) : List Char := '"' :: s.toList.flatMap escapeChar ++ ['"']

def integerChars (i : Int) : List Char :=
  if i < 0 then '-' :: Nat.toDigits 10 i.natAbs else Nat.toDigits 10 i.natAbs

mutual

def compactChars : Json → List Char
  | .null => ['n', 'u', 'l', 'l']
  | .bool true => ['t', 'r', 'u', 'e']
  | .bool false => ['f', 'a', 'l', 's', 'e']
  | .integer i => integerChars i
  | .real x => x.chars
  | .string s => quoted s
  | .array items => '[' :: compactItems items ++ [']']
  | .object members => '{' :: compactMembers members ++ ['}']

def compactItems : List Json → List Char
  | [] => []
  | [x] => compactChars x
  | x :: y :: rest => compactChars x ++ ',' :: compactItems (y :: rest)

def compactMembers : List (String × Json) → List Char
  | [] => []
  | [(name, x)] => quoted name ++ ':' :: compactChars x
  | (name, x) :: y :: rest =>
    quoted name ++ ':' :: compactChars x ++ ',' :: compactMembers (y :: rest)

end

def newline (depth : Nat) : List Char := '\n' :: List.replicate (2 * depth) ' '

mutual

/-- An empty array or object stays on its line. -/
def prettyChars (depth : Nat) : Json → List Char
  | .array [] => ['[', ']']
  | .array (x :: rest) =>
    '[' :: newline (depth + 1) ++ prettyItems (depth + 1) (x :: rest) ++ newline depth ++ [']']
  | .object [] => ['{', '}']
  | .object (m :: rest) =>
    '{' :: newline (depth + 1) ++ prettyMembers (depth + 1) (m :: rest) ++ newline depth ++ ['}']
  | .null => ['n', 'u', 'l', 'l']
  | .bool true => ['t', 'r', 'u', 'e']
  | .bool false => ['f', 'a', 'l', 's', 'e']
  | .integer i => integerChars i
  | .real x => x.chars
  | .string s => quoted s

def prettyItems (depth : Nat) : List Json → List Char
  | [] => []
  | [x] => prettyChars depth x
  | x :: y :: rest => prettyChars depth x ++ ',' :: newline depth ++ prettyItems depth (y :: rest)

def prettyMembers (depth : Nat) : List (String × Json) → List Char
  | [] => []
  | [(name, x)] => quoted name ++ ':' :: ' ' :: prettyChars depth x
  | (name, x) :: y :: rest =>
    quoted name ++ ':' :: ' ' :: prettyChars depth x ++ ',' :: newline depth ++
      prettyMembers depth (y :: rest)

end

def compact (v : Json) : String := String.ofList v.compactChars

def pretty (v : Json) : String := String.ofList (v.prettyChars 0)

end HanaInsights.Json
