import HanaInsights.Json.Reader
import HanaInsights.Toml.Basic
set_option autoImplicit false

namespace HanaInsights.Toml

def isSpace (c : Char) : Bool := c == ' ' || c == '\t'

def skipSpace (cs : List Char) : List Char := cs.dropWhile isSpace

def isPlain (c : Char) : Bool := c == '\t' || (0x20 ≤ c.toNat && c.toNat != 0x7F)

def skipComment : List Char → List Char
  | '#' :: rest => rest.dropWhile isPlain
  | cs => cs

/-- A carriage return counts only before a line feed. -/
def lineEnd? : List Char → Option (List Char)
  | [] => some []
  | '\n' :: rest => some rest
  | '\r' :: '\n' :: rest => some rest
  | _ => none

def endOfLine? (cs : List Char) : Option (List Char) := lineEnd? (skipComment (skipSpace cs))

def skipTrivia : Nat → List Char → List Char
  | 0, cs => cs
  | fuel + 1, cs =>
    match skipComment (skipSpace cs) with
    | '\n' :: rest => skipTrivia fuel rest
    | '\r' :: '\n' :: rest => skipTrivia fuel rest
    | rest => rest

def trivia (cs : List Char) : List Char := skipTrivia cs.length cs

def hexDigits? : Nat → Nat → List Char → Option (Nat × List Char)
  | 0, value, cs => some (value, cs)
  | n + 1, value, c :: cs =>
    match Json.hexValue? c with
    | some d => hexDigits? n (value * 16 + d) cs
    | none => none
  | _ + 1, _, [] => none

def unicode? (digits : Nat) (cs : List Char) : Option (Char × List Char) :=
  match hexDigits? digits 0 cs with
  | some (n, rest) => if h : n.isValidChar then some (Char.ofNatAux n h, rest) else none
  | none => none

def escape? : List Char → Option (Char × List Char)
  | 'b' :: rest => some ('\x08', rest)
  | 't' :: rest => some ('\t', rest)
  | 'n' :: rest => some ('\n', rest)
  | 'f' :: rest => some ('\x0c', rest)
  | 'r' :: rest => some ('\r', rest)
  | '"' :: rest => some ('"', rest)
  | '\\' :: rest => some ('\\', rest)
  | 'u' :: rest => unicode? 4 rest
  | 'U' :: rest => unicode? 8 rest
  | _ => none

def cons? (c : Char) : Option (List Char × List Char) → Option (List Char × List Char)
  | some (cs, rest) => some (c :: cs, rest)
  | none => none

def basicBody : Nat → List Char → Option (List Char × List Char)
  | 0, _ => none
  | _ + 1, [] => none
  | _ + 1, '"' :: rest => some ([], rest)
  | fuel + 1, '\\' :: rest =>
    match escape? rest with
    | some (c, rest) => cons? c (basicBody fuel rest)
    | none => none
  | fuel + 1, c :: rest => if isPlain c then cons? c (basicBody fuel rest) else none

def literalBody : List Char → Option (List Char × List Char)
  | [] => none
  | '\'' :: rest => some ([], rest)
  | c :: rest => if isPlain c then cons? c (literalBody rest) else none

def skipBlankLines : Nat → List Char → List Char
  | 0, cs => cs
  | fuel + 1, cs =>
    match skipSpace cs with
    | '\n' :: rest => skipBlankLines fuel rest
    | '\r' :: '\n' :: rest => skipBlankLines fuel rest
    | rest => rest

/-- A backslash at the end of a line takes away the line end and all blank space after it. -/
def lineContinuation? (cs : List Char) : Option (List Char) :=
  match skipSpace cs with
  | '\n' :: rest => some (skipBlankLines rest.length rest)
  | '\r' :: '\n' :: rest => some (skipBlankLines rest.length rest)
  | _ => none

/-- A run of quotes ends the string if it has three of them; up to two more belong to the text. -/
def closingQuotes? (quote : Char) (cs : List Char) : Option (List Char × List Char) :=
  let run := (cs.takeWhile (· == quote)).length
  if run < 3 then none
  else
    let kept := min (run - 3) 2
    some (List.replicate kept quote, cs.drop (kept + 3))

def multilineBasicBody : Nat → List Char → Option (List Char × List Char)
  | 0, _ => none
  | _ + 1, [] => none
  | fuel + 1, '"' :: rest =>
    match closingQuotes? '"' ('"' :: rest) with
    | some closed => some closed
    | none => cons? '"' (multilineBasicBody fuel rest)
  | fuel + 1, '\\' :: rest =>
    match lineContinuation? rest with
    | some rest => multilineBasicBody fuel rest
    | none =>
      match escape? rest with
      | some (c, rest) => cons? c (multilineBasicBody fuel rest)
      | none => none
  | fuel + 1, '\n' :: rest => cons? '\n' (multilineBasicBody fuel rest)
  | fuel + 1, '\r' :: '\n' :: rest => cons? '\n' (multilineBasicBody fuel rest)
  | fuel + 1, c :: rest => if isPlain c then cons? c (multilineBasicBody fuel rest) else none

def multilineLiteralBody : Nat → List Char → Option (List Char × List Char)
  | 0, _ => none
  | _ + 1, [] => none
  | fuel + 1, '\'' :: rest =>
    match closingQuotes? '\'' ('\'' :: rest) with
    | some closed => some closed
    | none => cons? '\'' (multilineLiteralBody fuel rest)
  | fuel + 1, '\n' :: rest => cons? '\n' (multilineLiteralBody fuel rest)
  | fuel + 1, '\r' :: '\n' :: rest => cons? '\n' (multilineLiteralBody fuel rest)
  | fuel + 1, c :: rest => if isPlain c then cons? c (multilineLiteralBody fuel rest) else none

/-- A line end right after the opening quotes is no part of the text. -/
def afterOpening : List Char → List Char
  | '\n' :: rest => rest
  | '\r' :: '\n' :: rest => rest
  | cs => cs

def ofBody : Option (List Char × List Char) → Option (String × List Char)
  | some (cs, rest) => some (String.ofList cs, rest)
  | none => none

def string? : List Char → Option (String × List Char)
  | '"' :: '"' :: '"' :: rest =>
    let rest := afterOpening rest
    ofBody (multilineBasicBody (rest.length + 1) rest)
  | '"' :: rest => ofBody (basicBody (rest.length + 1) rest)
  | '\'' :: '\'' :: '\'' :: rest =>
    let rest := afterOpening rest
    ofBody (multilineLiteralBody (rest.length + 1) rest)
  | '\'' :: rest => ofBody (literalBody rest)
  | _ => none

def isBareKeyChar (c : Char) : Bool :=
  isDigit c || ('a' ≤ c && c ≤ 'z') || ('A' ≤ c && c ≤ 'Z') || c == '-' || c == '_'

def simpleKey? : List Char → Option (String × List Char)
  | '"' :: rest => ofBody (basicBody (rest.length + 1) rest)
  | '\'' :: rest => ofBody (literalBody rest)
  | cs =>
    let key := cs.takeWhile isBareKeyChar
    if key.isEmpty then none else some (String.ofList key, cs.dropWhile isBareKeyChar)

def keyParts : Nat → List Char → Option (List String × List Char)
  | 0, _ => none
  | fuel + 1, cs =>
    match simpleKey? (skipSpace cs) with
    | none => none
    | some (part, rest) =>
      match skipSpace rest with
      | '.' :: rest =>
        match keyParts fuel rest with
        | some (parts, rest) => some (part :: parts, rest)
        | none => none
      | rest => some ([part], rest)

def depthLimit : Nat := 80

def key? (cs : List Char) : Option (List String × List Char) :=
  match keyParts (cs.length + 1) cs with
  | some (parts, rest) => if parts.length < depthLimit then some (parts, rest) else none
  | none => none

end HanaInsights.Toml
