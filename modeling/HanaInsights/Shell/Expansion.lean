import HanaInsights.Shell.Arithmetic
import HanaInsights.Shell.Pattern
import HanaInsights.Shell.Process
import HanaInsights.Shell.Reader
set_option autoImplicit false

namespace HanaInsights.Shell

open Glob (Marked)

def plainText (field : Marked) : String := String.ofList (field.map (·.1))

/-- The fields of a word so far; the last one may still grow. -/
structure Fields where
  finished : List Marked := []
  open? : Option Marked := none

namespace Fields

def add (f : Fields) (quoted : Bool) (cs : List Char) : Fields :=
  { f with open? := some (f.open?.getD [] ++ cs.map fun c => (c, quoted)) }

def close (f : Fields) : Fields :=
  match f.open? with
  | some field => ⟨f.finished ++ [field], none⟩
  | none => f

def isSeparator (c : Char) : Bool := c == ' ' || c == '\t' || c == '\n'

def addSplit (f : Fields) (cs : List Char) : Fields :=
  cs.foldl (fun f c => if isSeparator c then f.close else f.add false [c]) f

def addText (f : Fields) (split quoted : Bool) (text : String) : Fields :=
  if quoted then f.add true text.toList
  else if split then f.addSplit text.toList
  else f.add false text.toList

/-- Each argument is a field of its own, joined to what stands around the first and the last. -/
def addArguments (f : Fields) (split quoted : Bool) : List String → Fields
  | [] => f
  | [a] => f.addText split quoted a
  | a :: rest =>
    let f := f.addText split quoted a
    addArguments (if split then f.close else f.add quoted [' ']) split quoted rest

def toList (f : Fields) : List Marked := f.close.finished

end Fields

def parameter? (p : Process) (name : String) : Option String :=
  match name with
  | "#" => some (toString p.arguments.length)
  | "?" => some (toString p.status)
  | "$" => some (toString p.identity)
  | "-" => some ""
  | "0" => some p.name
  | "@" | "*" => if p.arguments.isEmpty then none else some (" ".intercalate p.arguments)
  | _ =>
    if name.toList.all Char.isDigit then p.arguments[digitsToNat name.toList - 1]?
    else p.assigned.get? name

/-- The lengths of a text's ends that a trim may remove, the one to try first in front. -/
def trimLengths (length : Nat) (longest : Bool) : List Nat :=
  let lengths := List.range (length + 1)
  if longest then lengths.reverse else lengths

def trimmed (front longest : Bool) (pattern : List Glob) (text : List Char) : List Char :=
  let n := text.length
  if front then
    match (trimLengths n longest).find? fun k => Glob.matches? pattern (text.take k) with
    | some k => text.drop k
    | none => text
  else
    match (trimLengths n longest).find? fun k => Glob.matches? pattern (text.drop (n - k)) with
    | some k => text.take (n - k)
    | none => text

section

-- How the output of a script inside a word is found.
variable (outputOf : String → Action (List UInt8))

def substitute (source : String) : Action String := do
  let text := (Utf8.decodeLossy (← outputOf source)).toList
  return String.ofList (text.reverse.dropWhile (· == '\n')).reverse

/-- A text inside a parameter's braces, its own parameters being replaced one level deep. -/
def innerText (source : String) : Action Marked := do
  let p ← get
  let word := (word? source.toList).elim [] (·.1)
  return word.flatMap fun piece =>
    match piece with
    | .text quoted cs => cs.map fun c => (c, quoted)
    | .parameter quoted name _ => ((parameter? p name).getD "").toList.map fun c => (c, quoted)
    | _ => []

def innerWord (source : String) : Action String := do
  let p ← get
  return String.join ((textWord source).map fun piece =>
    match piece with
    | .text _ cs => String.ofList cs
    | .parameter _ name _ => (parameter? p name).getD ""
    | _ => "")

def changed (name : String) (change : Change) : Action String := do
  let value := parameter? (← get) name
  match change with
  | .plain => return value.getD ""
  | .length => return toString (value.getD "").length
  | .default emptyToo source =>
    match value with
    | some v => if emptyToo && v.isEmpty then innerWord source else return v
    | none => innerWord source
  | .alternative emptyToo source =>
    match value with
    | some v => if emptyToo && v.isEmpty then return "" else innerWord source
    | none => return ""
  | .trim front longest source =>
    let pattern := Glob.ofMarked (← innerText source)
    return String.ofList (trimmed front longest pattern (value.getD "").toList)

def addPiece (split : Bool) (f : Fields) : Piece → Action Fields
  | .text quoted cs => return f.add quoted cs
  | .parameter quoted "@" .plain => do
    return f.addArguments split quoted (← get).arguments
  | .parameter false "*" .plain => do
    return f.addArguments split false (← get).arguments
  | .parameter quoted name change => do
    return f.addText split quoted (← changed name change)
  | .output quoted source => do return f.addText split quoted (← substitute outputOf source)
  | .number quoted source => do
    let source ← innerWord source
    let p ← get
    match Arithmetic.eval? p.assigned.get? source with
    | some n => return f.addText split quoted (toString n)
    | none => do
      Action.complain
        (p.name ++ ": 1: arithmetic expression: expecting primary: \"" ++ source ++ "\"")
      Action.setStatus 2
      throw .exit

def expandFields (split : Bool) (word : Word) : Action (List Marked) := do
  let f ← word.foldlM (addPiece outputOf split) {}
  return f.toList

def expandWord (word : Word) : Action (List String) := do
  return (← expandFields outputOf true word).map plainText

def expandMarked (word : Word) : Action Marked := do
  return (← expandFields outputOf false word).flatten

def expandText (word : Word) : Action String := do return plainText (← expandMarked outputOf word)

end

end HanaInsights.Shell
