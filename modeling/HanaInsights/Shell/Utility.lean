import HanaInsights.Shell.Format
import HanaInsights.Shell.Program
set_option autoImplicit false

namespace HanaInsights.Shell.Utilities

section

variable (complain : String → Action Unit)

def fail (status : Nat) (message : String) : Action Unit := do
  complain message
  Action.setStatus status

def succeed : Action Unit := Action.setStatus 0

/-- A shell's own echo always reads escapes, the program only when told to. -/
def echoOptions : Bool → List String → (Bool × Bool) × List String
  | escapes, [] => ((escapes, true), [])
  | escapes, a :: rest =>
    if a = "-n" then (((echoOptions escapes rest).1.1, false), (echoOptions escapes rest).2)
    else if a = "-e" && !escapes then echoOptions true rest
    else ((escapes, true), a :: rest)

def echo (builtIn : Bool) (arguments : List String) : Action Unit := do
  let ((escapes, newline), arguments) :=
    if builtIn then
      match arguments with
      | "-n" :: rest => ((true, false), rest)
      | rest => ((true, true), rest)
    else echoOptions false arguments
  let text := " ".intercalate arguments
  let (bytes, stop) := if escapes then Format.unescapeText text else (Utf8.encode text, false)
  Action.write 1 (bytes ++ if newline && !stop then [10] else [])
  succeed

def printf : List String → Action Unit
  | [] => fail complain 2 "usage: printf format [arg ...]"
  | format :: arguments => do
    let (bytes, sound) := Format.print format arguments
    Action.write 1 bytes
    if sound then succeed
    else fail complain 1 (arguments.headD "" ++ ": expected numeric value")

def takeInput : Action (List UInt8) := do
  let p ← get
  set { p with input := [] }
  return p.input

def contentOf (path : String) : Action (Except FileFault (List UInt8)) := do
  if path = "-" then return .ok (← takeInput)
  else if path = "/dev/null" then return .ok []
  else return (← get).files.read path

def cat (paths : List String) : Action Unit := do
  succeed
  for path in if paths.isEmpty then ["-"] else paths do
    match ← contentOf path with
    | .ok bytes => Action.write 1 bytes
    | .error fault => fail complain 1 (path ++ ": " ++ fault.reason)

/-- A count with up to three decimals, in thousandths, and the unit behind it. -/
def milliseconds? (text : String) : Option Nat :=
  let cs := text.toList
  let whole := cs.takeWhile Char.isDigit
  let (fraction, unit) : List Char × List Char :=
    match cs.drop whole.length with
    | '.' :: rest => (rest.takeWhile Char.isDigit, rest.dropWhile Char.isDigit)
    | rest => ([], rest)
  if whole.isEmpty && fraction.isEmpty then none
  else
    let thousandths := Format.decimal (whole ++ (fraction ++ ['0', '0', '0']).take 3)
    match unit with
    | [] | ['s'] => some thousandths
    | ['m'] => some (thousandths * 60)
    | ['h'] => some (thousandths * 3600)
    | ['d'] => some (thousandths * 86400)
    | _ => none

def sleep (arguments : List String) : Action Unit := do
  if arguments.isEmpty then fail complain 1 "missing operand"
  else
    match arguments.mapM milliseconds? with
    | some times => do
      Action.wait (times.foldl (· + ·) 0)
      succeed
    | none =>
      fail complain 1 ("invalid time interval '" ++ arguments.headD "" ++ "'")

def firstLines : Nat → List UInt8 → List UInt8
  | _, [] => []
  | 0, _ => []
  | n + 1, b :: bs => b :: firstLines (if b == 10 then n else n + 1) bs
termination_by _ bs => bs.length

def headOptions : List String → Bool × Nat × List String
  | "-n" :: n :: rest => (false, n.toNat?.getD 10, rest)
  | "-c" :: n :: rest => (true, n.toNat?.getD 10, rest)
  | a :: rest =>
    match a.toList with
    | '-' :: c :: cs =>
      if (c :: cs).all Char.isDigit then (false, Format.decimal (c :: cs), rest)
      else (false, 10, a :: rest)
    | _ => (false, 10, a :: rest)
  | [] => (false, 10, [])

def head (arguments : List String) : Action Unit := do
  let (byBytes, count, paths) := headOptions arguments
  let path := paths.headD "-"
  match ← contentOf path with
  | .error fault => fail complain 1 ("cannot open '" ++ path ++ "' for reading: " ++ fault.reason)
  | .ok bytes => do
    Action.write 1 (if byBytes then bytes.take count else firstLines count bytes)
    succeed

def seq (arguments : List String) : Action Unit := do
  let numbers := arguments.filterMap String.toInt?
  let (first, step, last) : Int × Int × Int :=
    match numbers with
    | [last] => (1, 1, last)
    | [first, last] => (first, 1, last)
    | [first, step, last] => (first, step, last)
    | _ => (1, 1, 0)
  if step == 0 || numbers.length != arguments.length then fail complain 1 "invalid argument"
  else
    let count := (last - first).fdiv step + 1
    for i in List.range count.toNat do
      Action.print (toString (first + step * i) ++ "\n")
    succeed

def searchPath (p : Process) : String := (p.assigned.get? "PATH").getD Program.defaultPath

def which (names : List String) : Action Unit := do
  Action.setStatus (if names.isEmpty then 1 else 0)
  for name in names do
    let p ← get
    match Program.find? p.files (searchPath p) name with
    | .ok path => Action.print (path ++ "\n")
    | .error _ => Action.setStatus 1

def shownNames (entries : List (String × FileEntry)) : List String :=
  (entries.map (·.1)).filter fun name => name.toList.head? != some '.'

def ls (arguments : List String) : Action Unit := do
  let paths := arguments.filter fun a => a.toList.head? != some '-'
  succeed
  for path in if paths.isEmpty then ["."] else paths do
    let p ← get
    match p.files.locate path with
    | .error fault => fail complain 2 ("cannot access '" ++ path ++ "': " ++ fault.reason)
    | .ok _ =>
      match p.files.list path with
      | .ok entries => for name in shownNames entries do Action.print (name ++ "\n")
      | .error _ => Action.print (path ++ "\n")

def pwd : Action Unit := do
  Action.print ("/" ++ "/".intercalate (← get).files.working ++ "\n")
  succeed

def signalNumbers : List (String × Nat) :=
  [("HUP", 1), ("INT", 2), ("QUIT", 3), ("ILL", 4), ("ABRT", 6), ("BUS", 7), ("FPE", 8),
    ("KILL", 9), ("USR1", 10), ("SEGV", 11), ("USR2", 12), ("PIPE", 13), ("ALRM", 14),
    ("TERM", 15), ("CHLD", 17), ("CONT", 18), ("STOP", 19), ("WINCH", 28)]

def signal? (name : String) : Option Nat :=
  match name.toNat? with
  | some n => some n
  | none =>
    let short := if "SIG".toList.isPrefixOf name.toList then (name.drop 3).toString else name
    signalNumbers.lookup short

/-- Signals that a process which does not expect them does not notice. -/
def isHarmless (signal : Nat) : Bool := [0, 17, 18, 23, 28].contains signal

def agentSignal? (signal : Nat) : Option Signal :=
  match signal with
  | 15 => some .terminate
  | 2 => some .interrupt
  | _ => none

/-- A signal to the agent is noted for it; one to a shell on the way ends that shell. -/
def send (signal : Nat) (target : String) : Action Unit := do
  let p ← get
  match target.toNat? with
  | none => fail complain 2 ("Illegal number: " ++ target)
  | some n =>
    if n = p.agent then
      modify fun p => { p with signals := p.signals ++ (agentSignal? signal).toList }
    else if p.agent < n ∧ n < p.nextIdentity then do
      if !isHarmless signal then throw (.killed n signal)
    else fail complain 1 "No such process"

def kill (arguments : List String) : Action Unit := do
  let (signal, targets) : Option Nat × List String :=
    match arguments with
    | "-s" :: name :: rest => (signal? name, rest)
    | "--" :: rest => (some 15, rest)
    | a :: rest =>
      match a.toList with
      | '-' :: cs => (signal? (String.ofList cs), rest)
      | _ => (some 15, a :: rest)
    | [] => (none, [])
  match signal with
  | none => fail complain 2 "Illegal option"
  | some signal => do
    succeed
    for target in targets do send complain signal target

def unary? (p : Process) (operator value : String) : Option Bool :=
  match operator with
  | "-n" => some (!value.isEmpty)
  | "-z" => some value.isEmpty
  | "-e" => some (p.files.find? value).isSome
  | "-f" => some (p.files.isFile value)
  | "-d" => some (p.files.find? value == some .directory)
  | "-r" | "-w" => some (p.files.find? value).isSome
  | "-s" =>
    some (match p.files.find? value with
      | some (.file bytes _) => !bytes.isEmpty
      | some .directory => true
      | none => false)
  | "-x" =>
    some (match p.files.find? value with
      | some (.file _ executable) => executable
      | some .directory => true
      | none => false)
  | _ => none

def binary? (a operator b : String) : Option Bool :=
  let numbers (f : Int → Int → Bool) : Option Bool :=
    match a.toInt?, b.toInt? with
    | some a, some b => some (f a b)
    | _, _ => none
  match operator with
  | "=" | "==" => some (a == b)
  | "!=" => some (a != b)
  | "-eq" => numbers (· == ·)
  | "-ne" => numbers (· != ·)
  | "-lt" => numbers (· < ·)
  | "-le" => numbers (· ≤ ·)
  | "-gt" => numbers (· > ·)
  | "-ge" => numbers (· ≥ ·)
  | _ => none

def holdsSimple? (p : Process) : List String → Option Bool
  | [] => some false
  | [a] => some (!a.isEmpty)
  | ["!", a] => some a.isEmpty
  | [o, a] => unary? p o a
  | ["!", o, a] => (unary? p o a).map (!·)
  | [a, o, b] => binary? a o b
  | ["!", a, o, b] => (binary? a o b).map (!·)
  | _ => none

def splitAt (connective : String) : List String → List (List String)
  | [] => [[]]
  | a :: rest =>
    if a = connective then [] :: splitAt connective rest
    else
      match splitAt connective rest with
      | part :: parts => (a :: part) :: parts
      | [] => [[a]]

def holds? (p : Process) (expression : List String) : Option Bool := do
  if expression.length ≤ 4 then holdsSimple? p expression
  else
    let any ← (splitAt "-o" expression).mapM fun part => do
      let all ← (splitAt "-a" part).mapM (holdsSimple? p)
      return all.all id
    return any.any id

def test (arguments : List String) : Action Unit := do
  match holds? (← get) arguments with
  | some true => succeed
  | some false => Action.setStatus 1
  | none => fail complain 2 "unexpected operator"

def bracket (arguments : List String) : Action Unit :=
  match arguments.reverse with
  | "]" :: rest => test complain rest.reverse
  | _ => fail complain 2 "missing ]"

def run (builtIn : Bool) (name : String) (u : Utility) (arguments : List String) : Action Unit :=
  match u with
  | .cat => cat complain arguments
  | .echo => echo builtIn arguments
  | .false => Action.setStatus 1
  | .head => head complain arguments
  | .kill => kill complain arguments
  | .ls => ls complain arguments
  | .printf => printf complain arguments
  | .pwd => pwd
  | .seq => seq complain arguments
  | .sleep => sleep complain arguments
  | .test => if name = "[" then bracket complain arguments else test complain arguments
  | .true => succeed
  | .which => which arguments
  | .env | .sh => succeed

end

end HanaInsights.Shell.Utilities
