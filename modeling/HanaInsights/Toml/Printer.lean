import HanaInsights.Binary64.Shortest
import HanaInsights.Json.Printer
import HanaInsights.Toml.Lexeme
set_option autoImplicit false

/-!
Writing TOML documents: the plain keys of a table one to a line, then its tables, each under a
header and after a blank line. A header is left out when the table has tables alone. Texts take the
least disturbing of the four string forms that can hold them.
-/

namespace HanaInsights.Toml

def isControl (c : Char) : Bool :=
  (c.toNat < 0x20 && c != '\t' && c != '\n') || c.toNat == 0x7F

def longestRun (quote : Char) : Nat → Nat → List Char → Nat
  | best, current, [] => max best current
  | best, current, c :: rest =>
    if c = quote then longestRun quote best (current + 1) rest
    else longestRun quote (max best current) 0 rest

def upperHexDigit (n : Nat) : Char :=
  if n < 10 then Char.ofNat (n + 48) else Char.ofNat (n + 55)

def escapeControl (c : Char) : List Char :=
  match c with
  | '\x08' => ['\\', 'b']
  | '\t' => ['\\', 't']
  | '\n' => ['\\', 'n']
  | '\x0c' => ['\\', 'f']
  | '\r' => ['\\', 'r']
  | '\\' => ['\\', '\\']
  | c =>
    if c.toNat < 0x20 ∨ c.toNat = 0x7F then
      ['\\', 'u', '0', '0', upperHexDigit (c.toNat / 16), upperHexDigit (c.toNat % 16)]
    else [c]

def escapeBasic (c : Char) : List Char := if c = '"' then ['\\', '"'] else escapeControl c

/-- Two quotes in a row may stand as they are; line feeds always do. -/
def escapeMultiline : Nat → List Char → List Char
  | _, [] => []
  | quotes, c :: rest =>
    if c = '"' then
      if quotes = 2 then '\\' :: '"' :: escapeMultiline 0 rest
      else '"' :: escapeMultiline (quotes + 1) rest
    else if c = '\n' then '\n' :: escapeMultiline 0 rest
    else escapeControl c ++ escapeMultiline 0 rest

def basicChars (cs : List Char) : List Char := '"' :: cs.flatMap escapeBasic ++ ['"']

def literalChars (cs : List Char) : List Char := '\'' :: cs ++ ['\'']

def opening (cs : List Char) : List Char := if cs.contains '\n' then ['\n'] else []

def multilineBasicChars (cs : List Char) : List Char :=
  ['"', '"', '"'] ++ opening cs ++ escapeMultiline 0 cs ++ ['"', '"', '"']

def multilineLiteralChars (cs : List Char) : List Char :=
  ['\'', '\'', '\''] ++ opening cs ++ cs ++ ['\'', '\'', '\'']

/-- The forms are tried from the plainest on; escapes are the last resort. -/
def stringChars (cs : List Char) : List Char :=
  let control := cs.any isControl
  let newline := cs.contains '\n'
  if !control && !newline && !cs.contains '"' && !cs.contains '\\' then basicChars cs
  else if !control && !newline && !cs.contains '\'' then literalChars cs
  else if !control && !cs.contains '\\' && longestRun '"' 0 0 cs < 3 then multilineBasicChars cs
  else if !control && longestRun '\'' 0 0 cs < 3 then multilineLiteralChars cs
  else if newline then multilineBasicChars cs
  else basicChars cs

def keyChars (cs : List Char) : List Char :=
  let control := cs.any isControl || cs.contains '\n'
  if !cs.isEmpty && cs.all isBareKeyChar then cs
  else if !control && !cs.contains '"' && !cs.contains '\\' then basicChars cs
  else if !control && !cs.contains '\'' then literalChars cs
  else basicChars cs

def pathChars : List String → List Char
  | [] => []
  | [key] => keyChars key.toList
  | key :: rest => keyChars key.toList ++ '.' :: pathChars rest

mutual

def valueChars : Toml → List Char
  | .string s => stringChars s.toList
  | .integer i => Json.integerChars i
  | .float x => x.chars
  | .bool b => if b then ['t', 'r', 'u', 'e'] else ['f', 'a', 'l', 's', 'e']
  | .datetime text => text.toList
  | .array items => '[' :: itemsChars items ++ [']']
  | .table entries => '{' :: inlineChars entries ++ ['}']

def itemsChars : List Toml → List Char
  | [] => []
  | [v] => valueChars v
  | v :: w :: rest => valueChars v ++ ',' :: ' ' :: itemsChars (w :: rest)

def inlineChars : List (String × Toml) → List Char
  | [] => []
  | [(key, v)] => ' ' :: keyChars key.toList ++ ' ' :: '=' :: ' ' :: valueChars v ++ [' ']
  | (key, v) :: w :: rest =>
    ' ' :: keyChars key.toList ++ ' ' :: '=' :: ' ' :: valueChars v ++ ',' ::
      inlineChars (w :: rest)

end

def isTable : Toml → Bool
  | .table _ => true
  | _ => false

def isSection : Toml → Bool
  | .table _ => true
  | .array items => !items.isEmpty && items.all isTable
  | _ => false

def pairsChars : List (String × Toml) → List Char
  | [] => []
  | (key, v) :: rest =>
    if isSection v then pairsChars rest
    else keyChars key.toList ++ ' ' :: '=' :: ' ' :: valueChars v ++ '\n' :: pairsChars rest

def needsHeader (entries : List (String × Toml)) : Bool :=
  entries.isEmpty || entries.any fun e => !isSection e.2

def headerChars (path : List String) : List Char :=
  '\n' :: '[' :: pathChars path ++ [']', '\n']

def elementHeaderChars (path : List String) : List Char :=
  '\n' :: '[' :: '[' :: pathChars path ++ [']', ']', '\n']

mutual

def sectionsChars (path : List String) : List (String × Toml) → List Char
  | [] => []
  | (key, v) :: rest => sectionChars (path ++ [key]) v ++ sectionsChars path rest

def sectionChars (path : List String) : Toml → List Char
  | .table entries =>
    (if needsHeader entries then headerChars path ++ pairsChars entries else []) ++
      sectionsChars path entries
  | .array items => if !items.isEmpty && items.all isTable then elementsChars path items else []
  | _ => []

def elementsChars (path : List String) : List Toml → List Char
  | [] => []
  | .table entries :: rest =>
    elementHeaderChars path ++ pairsChars entries ++ sectionsChars path entries ++
      elementsChars path rest
  | _ :: rest => elementsChars path rest

end

def print (entries : List (String × Toml)) : String :=
  String.ofList (pairsChars entries ++ sectionsChars [] entries)

def natural? (n : Nat) : Option Toml := if n ≤ 9223372036854775807 then some (.integer n) else none

end HanaInsights.Toml
