set_option autoImplicit false

namespace HanaInsights.Shell

inductive Glob where
  | char (c : Char)
  | one
  | many
  | set (negated : Bool) (ranges : List (Char × Char))
  deriving DecidableEq, Repr

namespace Glob

/-- A text whose characters know whether they were quoted. -/
abbrev Marked := List (Char × Bool)

def ranges? : Nat → Marked → Option (List (Char × Char) × Marked)
  | 0, _ => none
  | _ + 1, [] => none
  | _ + 1, (']', false) :: rest => some ([], rest)
  | fuel + 1, (a, _) :: ('-', false) :: (b, quoted) :: rest =>
    if b = ']' ∧ quoted = false then some ([(a, a), ('-', '-')], rest)
    else (ranges? fuel rest).map fun (rs, rest) => ((a, b) :: rs, rest)
  | fuel + 1, (a, _) :: rest => (ranges? fuel rest).map fun (rs, rest) => ((a, a) :: rs, rest)

/-- A bracket that comes first belongs to the set. -/
def set? (text : Marked) : Option (Glob × Marked) :=
  let (negated, text) : Bool × Marked :=
    match text with
    | ('!', false) :: rest => (true, rest)
    | _ => (false, text)
  match text with
  | (']', false) :: rest =>
    (ranges? (text.length + 1) rest).map fun (rs, rest) => (.set negated ((']', ']') :: rs), rest)
  | _ => (ranges? (text.length + 1) text).map fun (rs, rest) => (.set negated rs, rest)

def ofMarkedFuel : Nat → Marked → List Glob
  | 0, _ => []
  | _ + 1, [] => []
  | fuel + 1, (c, true) :: rest => .char c :: ofMarkedFuel fuel rest
  | fuel + 1, (c, false) :: rest =>
    match c with
    | '*' => .many :: ofMarkedFuel fuel rest
    | '?' => .one :: ofMarkedFuel fuel rest
    | '[' =>
      match set? rest with
      | some (g, rest) => g :: ofMarkedFuel fuel rest
      | none => .char c :: ofMarkedFuel fuel rest
    | _ => .char c :: ofMarkedFuel fuel rest

def ofMarked (text : Marked) : List Glob := ofMarkedFuel (text.length + 1) text

def accepts (c : Char) : Glob → Bool
  | .char d => c == d
  | .one => true
  | .many => true
  | .set negated ranges => (ranges.any fun r => r.1 ≤ c && c ≤ r.2) != negated

def matches? : List Glob → List Char → Bool
  | [], cs => cs.isEmpty
  | .many :: gs, [] => matches? gs []
  | .many :: gs, c :: cs => matches? gs (c :: cs) || matches? (.many :: gs) cs
  | _ :: _, [] => false
  | g :: gs, c :: cs => g.accepts c && matches? gs cs
termination_by gs cs => gs.length + cs.length

end Glob
end HanaInsights.Shell
