import HanaInsights.Text.Blank
import HanaInsights.Binary64.Operand
set_option autoImplicit false

/-!
The SQL error that the database client reports: a line `* code: message`, the first one whose code
is a 32-bit integer.
-/

namespace HanaInsights

structure SqlError where
  code : Int
  text : String
  deriving DecidableEq, Repr

namespace SqlError

/-- The code is the digits before the colon; leading zeros do not matter. -/
def code? (negative : Bool) (digits : List Char) : Option Int :=
  let n : Int := digitsValue digits
  let code := if negative then -n else n
  if digits.isEmpty then none
  else if -2147483648 ≤ code ∧ code ≤ 2147483647 then some code
  else none

def afterSign (negative : Bool) (cs : List Char) : Option SqlError :=
  match cs.dropWhile isDigit with
  | ':' :: message =>
    match code? negative (cs.takeWhile isDigit), Text.trimChars message with
    | some code, c :: rest => some ⟨code, String.ofList (c :: rest)⟩
    | _, _ => none
  | _ => none

def ofTrimmed? : List Char → Option SqlError
  | '*' :: cs =>
    match cs.dropWhile Text.isBlank with
    | '-' :: cs => afterSign true cs
    | cs => afterSign false cs
  | _ => none

def ofLine? (line : List Char) : Option SqlError := ofTrimmed? (Text.trimChars line)

def splitLines : List Char → List (List Char)
  | [] => [[]]
  | c :: rest =>
    if c = '\n' then [] :: splitLines rest
    else match splitLines rest with
      | line :: lines => (c :: line) :: lines
      | [] => [[c]]

def ofText? (text : String) : Option SqlError := (splitLines text.toList).findSome? ofLine?

end SqlError
end HanaInsights
