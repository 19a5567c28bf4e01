set_option autoImplicit false

namespace HanaInsights.Shell.Arithmetic

inductive Token where
  | number (n : Int)
  | sign (text : String)
  deriving DecidableEq, Repr

def decimal (cs : List Char) : Nat :=
  cs.foldl (fun n c => 10 * n + (c.toNat - '0'.toNat)) 0

def valueOf (text : String) : Int :=
  match text.toList with
  | '-' :: cs => -(decimal (cs.filter Char.isDigit) : Int)
  | cs => (decimal (cs.filter Char.isDigit) : Int)

def tokens (lookup : String → Option String) : Nat → List Char → Option (List Token)
  | 0, _ => none
  | _ + 1, [] => some []
  | fuel + 1, c :: cs =>
    if c == ' ' || c == '\t' || c == '\n' || c == '$' then tokens lookup fuel cs
    else if c.isDigit then
      (tokens lookup fuel (cs.dropWhile Char.isDigit)).map
        (.number (decimal (c :: cs.takeWhile Char.isDigit)) :: ·)
    else if c.isAlpha || c == '_' then
      let isPart (c : Char) : Bool := c.isAlphanum || c == '_'
      let name := String.ofList (c :: cs.takeWhile isPart)
      (tokens lookup fuel (cs.dropWhile isPart)).map
        (.number (valueOf ((lookup name).getD "")) :: ·)
    else
      match c, cs with
      | '<', '=' :: rest => (tokens lookup fuel rest).map (.sign "<=" :: ·)
      | '>', '=' :: rest => (tokens lookup fuel rest).map (.sign ">=" :: ·)
      | '=', '=' :: rest => (tokens lookup fuel rest).map (.sign "==" :: ·)
      | '!', '=' :: rest => (tokens lookup fuel rest).map (.sign "!=" :: ·)
      | '&', '&' :: rest => (tokens lookup fuel rest).map (.sign "&&" :: ·)
      | '|', '|' :: rest => (tokens lookup fuel rest).map (.sign "||" :: ·)
      | _, _ =>
        if "+-*/%()<>!".toList.contains c then (tokens lookup fuel cs).map (.sign c.toString :: ·)
        else none

/-- The levels of binding, loosest first. -/
def levels : List (List String) :=
  [["||"], ["&&"], ["==", "!="], ["<", "<=", ">", ">="], ["+", "-"], ["*", "/", "%"]]

def truth (b : Bool) : Int := if b then 1 else 0

def combine? (sign : String) (a b : Int) : Option Int :=
  match sign with
  | "||" => some (truth (a != 0 || b != 0))
  | "&&" => some (truth (a != 0 && b != 0))
  | "==" => some (truth (a == b))
  | "!=" => some (truth (a != b))
  | "<" => some (truth (a < b))
  | "<=" => some (truth (a ≤ b))
  | ">" => some (truth (a > b))
  | ">=" => some (truth (a ≥ b))
  | "+" => some (a + b)
  | "-" => some (a - b)
  | "*" => some (a * b)
  | "/" => if b = 0 then none else some (a.tdiv b)
  | "%" => if b = 0 then none else some (a.tmod b)
  | _ => none

mutual

def level? : Nat → List (List String) → List Token → Option (Int × List Token)
  | 0, _, _ => none
  | fuel + 1, [], ts => atom? fuel ts
  | fuel + 1, signs :: tighter, ts =>
    match level? fuel tighter ts with
    | some (a, rest) => more? fuel signs tighter a rest
    | none => none

def more? : Nat → List String → List (List String) → Int → List Token →
    Option (Int × List Token)
  | 0, _, _, _, _ => none
  | fuel + 1, signs, tighter, a, .sign s :: ts =>
    if signs.contains s then
      match level? fuel tighter ts with
      | some (b, rest) =>
        match combine? s a b with
        | some c => more? fuel signs tighter c rest
        | none => none
      | none => none
    else some (a, .sign s :: ts)
  | _ + 1, _, _, a, ts => some (a, ts)

def atom? : Nat → List Token → Option (Int × List Token)
  | 0, _ => none
  | _ + 1, .number n :: ts => some (n, ts)
  | fuel + 1, .sign "-" :: ts => (atom? fuel ts).map fun (n, ts) => (-n, ts)
  | fuel + 1, .sign "+" :: ts => atom? fuel ts
  | fuel + 1, .sign "!" :: ts => (atom? fuel ts).map fun (n, ts) => (truth (n == 0), ts)
  | fuel + 1, .sign "(" :: ts =>
    match level? fuel levels ts with
    | some (n, .sign ")" :: ts) => some (n, ts)
    | _ => none
  | _ + 1, _ => none

end

def eval? (lookup : String → Option String) (text : String) : Option Int := do
  let ts ← tokens lookup (text.length + 1) text.toList
  if ts.isEmpty then some 0
  else
    match ← level? (10 * ts.length + 10) levels ts with
    | (n, []) => some n
    | _ => none

end HanaInsights.Shell.Arithmetic
