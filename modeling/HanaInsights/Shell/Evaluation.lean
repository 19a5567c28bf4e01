import HanaInsights.Shell.Expansion
import HanaInsights.Shell.Utility
set_option autoImplicit false

/-!
Running scripts. Commands are run one inside another to a bounded depth and loops go round a bounded
number of times; a script that goes beyond counts as one that never ends.
-/

namespace HanaInsights.Shell

def complainAt (line : Nat) (text : String) : Action Unit := do
  Action.complain ((← get).name ++ ": " ++ toString line ++ ": " ++ text)

section

abbrev Runner := Command → Action Unit

variable (go : Runner)

def leavesQuoteOpen : Option Char → List Char → Bool
  | q, [] => q.isSome
  | none, '\\' :: _ :: cs => leavesQuoteOpen none cs
  | some '"', '\\' :: _ :: cs => leavesQuoteOpen (some '"') cs
  | none, c :: cs => leavesQuoteOpen (if c = '"' ∨ c = '\x27' then some c else none) cs
  | some q, c :: cs => leavesQuoteOpen (if c = q then none else some q) cs

def syntaxFault (text : String) : String :=
  if leavesQuoteOpen none text.toList then "Unterminated quoted string"
  else "end of file unexpected"

def runText (text : String) : Action Unit := do
  match read? text with
  | some command => go command
  | none => do
    complainAt 1 ("Syntax error: " ++ syntaxFault text)
    Action.setStatus 2
    throw .exit

def outputOf (source : String) : Action (List UInt8) := do
  let (_, bytes) ← Action.capture (Action.isolated (runText go source))
  return bytes

def textOf (word : Word) : Action String := expandText (outputOf go) word

def readInto (line : Nat) (path : String) : Action Bool := do
  let p ← get
  if path = "/dev/null" then do
    set { p with input := [] }
    return true
  else
    match p.files.read path with
    | .ok bytes => do
      set { p with input := bytes }
      return true
    | .error _ => do
      complainAt line ("cannot open " ++ path ++ ": No such file")
      return false

def point (descriptor : Nat) (sink : Sink) : Action Unit :=
  modify fun p => { p with sinks := (descriptor, sink) :: p.sinks }

/-- Makes the file if it is not there; one that is there is emptied unless it is appended to. -/
def openFile (files : FileTree) (appending : Bool) (path : String) :
    Except FileFault (FileTree × List String) := do
  let files ←
    if appending && files.isFile path then .ok files
    else files.write path []
  let place ← files.locate path
  .ok (files, place)

def writeTo (line descriptor : Nat) (appending : Bool) (path : String) : Action Bool := do
  let p ← get
  match path with
  | "/dev/null" => do
    point descriptor .nowhere
    return true
  | "/dev/stdout" => do
    point descriptor (Action.sinkOf p 1)
    return true
  | "/dev/stderr" => do
    point descriptor (Action.sinkOf p 2)
    return true
  | _ =>
    match openFile p.files appending path with
    | .ok (files, place) => do
      set { p with files }
      point descriptor (.file place)
      return true
    | .error fault => do
      let reason :=
        match fault with
        | .notFound => "Directory nonexistent"
        | fault => fault.reason
      complainAt line ("cannot create " ++ path ++ ": " ++ reason)
      return false

def redirect (line : Nat) (r : Redirection) : Action Bool := do
  match r.target with
  | .readFile path => do readInto line (← textOf go path)
  | .writeFile path => do writeTo line r.descriptor false (← textOf go path)
  | .appendFile path => do writeTo line r.descriptor true (← textOf go path)
  | .lines text => do
    let bytes := Utf8.encode (← textOf go text)
    modify fun p => { p with input := bytes }
    return true
  | .duplicate word => do
    match (← textOf go word).toNat? with
    | some n => do
      if r.descriptor != 0 then point r.descriptor (Action.sinkOf (← get) n)
      return true
    | none => do
      point r.descriptor .nowhere
      return true

def redirectAll (line : Nat) : List Redirection → Action Bool
  | [] => return true
  | r :: rest => do
    if ← redirect go line r then redirectAll line rest else return false

def readsInput (r : Redirection) : Bool :=
  match r.target with
  | .readFile _ => true
  | .lines _ => true
  | _ => false

def withRedirections (line : Nat) (rs : List Redirection) (action : Action Unit) : Action Unit := do
  let p ← get
  let restore : Action Unit := modify fun q =>
    { q with sinks := p.sinks, input := if rs.any readsInput then p.input else q.input }
  try
    if ← redirectAll go line rs then action else Action.setStatus 2
  catch stop => do
    restore
    throw stop
  restore

/-- What a process that gets a program of its own starts with. -/
def become (name : String) (arguments : List String) : Action Unit :=
  modify fun p =>
    { p with
      assigned := Action.environment p
      functions := Keyed.empty
      name, arguments
      identity := p.nextIdentity
      nextIdentity := p.nextIdentity + 1
      parent := p.identity }

def interpret (name : String) (arguments : List String) (text : String) : Action Unit := do
  modify fun p =>
    { p with name, arguments, assigned := p.assigned.insert "PPID" (toString p.parent) }
  Action.setStatus 0
  runText go text

def shell (name : String) : List String → Action Unit
  | ["-c"] => do
    Action.complain (name ++ ": 0: -c requires an argument")
    Action.setStatus 2
  | "-c" :: text :: [] => interpret go name [] text
  | "-c" :: text :: zero :: rest => interpret go zero rest text
  | [] => do
    let bytes ← Utilities.takeInput
    interpret go name [] (Utf8.decodeLossy bytes)
  | path :: rest => do
    match (← get).files.read path with
    | .ok bytes => interpret go path rest (Utf8.decodeLossy bytes)
    | .error _ => do
      Action.complain (name ++ ": 0: cannot open " ++ path ++ ": No such file")
      Action.setStatus 2

def complainAs (name text : String) : Action Unit := Action.complain (name ++ ": " ++ text)

def isAssignment (text : String) : Bool := (assignment? text.toList).isSome

def setFrom (text : String) : Action Unit :=
  match assignment? text.toList with
  | some (name, value) => do
    Action.assign name (String.ofList value)
    modify fun p => { p with exported := name :: p.exported }
  | none => pure ()

/-- A program by its name; the last step hands over to what the file holds. -/
def execute (complain : String → Action Unit) : Nat → String → List String → Action Unit
  | 0, _, _ => throw .outOfTime
  | depth + 1, name, arguments => do
    let p ← get
    let found := do
      let path ← Program.find? p.files (Utilities.searchPath p) name
      match Program.imageOf p.files path with
      | .ok image => .ok image
      | .error .notProgram => .ok ⟨.sh, [path]⟩
      | .error fault => .error fault
    match found with
    | .error .permissionDenied => Utilities.fail complain 126 (name ++ ": Permission denied")
    | .error _ => Utilities.fail complain 127 (name ++ ": not found")
    | .ok image => do
      let arguments := image.before ++ arguments
      become name arguments
      Action.wait 1
      match image.utility with
      | .sh => shell go name arguments
      | .env =>
        let settings := arguments.takeWhile isAssignment
        for setting in settings do setFrom setting
        match arguments.drop settings.length with
        | [] => do
          for (name, value) in (Action.environment (← get)).entries do
            Action.print (name ++ "=" ++ value ++ "\n")
          Action.setStatus 0
        | name :: rest => execute (complainAs "env") depth name rest
      | u => Utilities.run (complainAs u.name) false name u arguments

def killedStatus (signal : Nat) : Nat := 128 + signal

def killedMessage? (signal : Nat) : Option String :=
  match signal with
  | 1 => some "Hangup"
  | 6 => some "Aborted"
  | 9 => some "Killed"
  | 11 => some "Segmentation fault"
  | 15 => some "Terminated"
  | _ => none

def spawn (line : Nat) (name : String) (arguments : List String) : Action Unit := do
  let child := (← get).nextIdentity
  try
    Action.isolated (execute go (complainAt line) 10 name arguments)
  catch
    | .killed identity signal =>
      if identity = child then do
        match killedMessage? signal with
        | some text => Action.complain text
        | none => pure ()
        Action.setStatus (killedStatus signal)
      else throw (.killed identity signal)
    | stop => throw stop

/-! ## Simple commands -/

def count (arguments : List String) (missing : Nat) : Nat :=
  match arguments with
  | a :: _ => (a.toNat?).getD missing
  | [] => missing

def setStatusFrom (line : Nat) (name : String) (arguments : List String) : Action Unit := do
  match arguments.head? with
  | none => pure ()
  | some a =>
    match a.toNat? with
    | some n => Action.setStatus n
    | none => do
      complainAt line (name ++ ": Illegal number: " ++ a)
      Action.setStatus 2
      throw .exit

def exportAll (arguments : List String) : Action Unit := do
  for a in arguments do
    if isAssignment a then setFrom a
    else modify fun p => { p with exported := a :: p.exported }
  Action.setStatus 0

def assignAll (arguments : List String) : Action Unit := do
  for a in arguments do
    match assignment? a.toList with
    | some (name, value) => Action.assign name (String.ofList value)
    | none => pure ()
  Action.setStatus 0

def unset (arguments : List String) : Action Unit := do
  let without (entries : List (String × String)) : Keyed String :=
    Keyed.ofList (entries.filter fun e => !arguments.contains e.1)
  modify fun p => { p with assigned := without p.assigned.entries }
  Action.setStatus 0

/-- Options are accepted and change nothing; other arguments replace the positional ones. -/
def setArguments (arguments : List String) : Action Unit := do
  match arguments.dropWhile fun a => a != "--" && a.toList.head? == some '-' with
  | "--" :: rest => modify fun p => { p with arguments := rest }
  | [] => pure ()
  | rest => modify fun p => { p with arguments := rest }
  Action.setStatus 0

def shift (arguments : List String) : Action Unit := do
  let p ← get
  let n := count arguments 1
  if n ≤ p.arguments.length then do
    set { p with arguments := p.arguments.drop n }
    Action.setStatus 0
  else do
    complainAt 1 "shift: can't shift that many"
    Action.setStatus 2
    throw .exit

/-- The words of a line go to the names one by one, the last name takes what is left. -/
def assignLine : List String → List Char → Action Unit
  | [], _ => pure ()
  | [name], cs => do
    let cs := cs.dropWhile Fields.isSeparator
    Action.assign name (String.ofList (cs.reverse.dropWhile Fields.isSeparator).reverse)
  | name :: names, cs => do
    let cs := cs.dropWhile Fields.isSeparator
    Action.assign name (String.ofList (cs.takeWhile fun c => !Fields.isSeparator c))
    assignLine names (cs.dropWhile fun c => !Fields.isSeparator c)

def readLine (arguments : List String) : Action Unit := do
  let names := arguments.filter (· != "-r")
  let p ← get
  let line := p.input.takeWhile (· != 10)
  let rest := p.input.drop line.length
  set { p with input := rest.drop 1 }
  assignLine names (Utf8.decodeLossy line).toList
  Action.setStatus (if rest.isEmpty then 1 else 0)

def changeDirectory (line : Nat) (arguments : List String) : Action Unit := do
  let p ← get
  let path := arguments.headD "/"
  match p.files.locate path with
  | .ok place =>
    if p.files.entry? place == some .directory then do
      set { p with files := { p.files with working := place } }
      Action.setStatus 0
    else Utilities.fail (complainAt line) 2 ("cd: can't cd to " ++ path)
  | .error _ => Utilities.fail (complainAt line) 2 ("cd: can't cd to " ++ path)

def builtIn? (name : String) : Option Utility :=
  if ["echo", "false", "kill", "printf", "pwd", "test", "[", "true"].contains name then
    Utility.ofName? name
  else none

def special? (line : Nat) (name : String) (arguments : List String) : Option (Action Unit) :=
  match name with
  | ":" | "trap" | "wait" | "umask" | "ulimit" => some (Action.setStatus 0)
  | "exit" => some do
      setStatusFrom line name arguments
      throw .exit
  | "return" => some do
      setStatusFrom line name arguments
      throw .returned
  | "break" => some (throw (.leave (count arguments 1)))
  | "continue" => some (throw (.next (count arguments 1)))
  | "eval" => some (runText go (" ".intercalate arguments))
  | "." => some do
      match (← get).files.read (arguments.headD "") with
      | .ok bytes => runText go (Utf8.decodeLossy bytes)
      | .error _ => do
        complainAt line (".: cannot open " ++ arguments.headD "" ++ ": No such file")
        Action.setStatus 2
        throw .exit
  | "exec" => some do
      match arguments with
      | [] => Action.setStatus 0
      | program :: rest => do
        spawn go line program rest
        throw .exit
  | "export" => some (exportAll arguments)
  | "readonly" | "local" => some (assignAll arguments)
  | "unset" => some (unset arguments)
  | "set" => some (setArguments arguments)
  | "shift" => some (shift arguments)
  | "read" => some (readLine arguments)
  | "cd" => some (changeDirectory line arguments)
  | _ => none

def callFunction (body : Command) (arguments : List String) : Action Unit := do
  let p ← get
  let restore : Action Unit := modify fun q => { q with arguments := p.arguments }
  modify fun q => { q with arguments }
  try
    go body
  catch
    | .returned => pure ()
    | stop => do
      restore
      throw stop
  restore

def isKnown (p : Process) (name : String) : Bool :=
  (special? go 1 name []).isSome || (p.functions.get? name).isSome || (builtIn? name).isSome ||
    (Program.find? p.files (Utilities.searchPath p) name).isOk

def invoke (line : Nat) (name : String) (arguments : List String) : Action Unit := do
  match special? go line name arguments with
  | some action => action
  | none =>
    match (← get).functions.get? name with
    | some body => callFunction go body arguments
    | none =>
      match builtIn? name with
      | some u =>
        Utilities.run (fun text => complainAt line (name ++ ": " ++ text)) true name u arguments
      | none => spawn go line name arguments

def commandWord (line : Nat) : List String → Action Unit
  | [] => Action.setStatus 0
  | "-v" :: names => do
    let name := names.headD ""
    if isKnown go (← get) name then do
      Action.print (name ++ "\n")
      Action.setStatus 0
    else Action.setStatus 127
  | name :: arguments => invoke go line name arguments

def assignWords (assignments : List (String × Word)) : Action Unit := do
  for (name, word) in assignments do
    Action.assign name (← textOf go word)

/-- Assignments before a command hold for that command only. -/
def withAssignments (assignments : List (String × Word)) (action : Action Unit) : Action Unit := do
  let p ← get
  let names := assignments.map (·.1)
  let restore : Action Unit := modify fun q =>
    if names.isEmpty then q else { q with assigned := p.assigned, exported := p.exported }
  assignWords go assignments
  modify fun q => { q with exported := names ++ q.exported }
  try
    action
  catch stop => do
    restore
    throw stop
  restore

def simple (line : Nat) (assignments : List (String × Word)) (words : List Word)
    (rs : List Redirection) : Action Unit := do
  let fields ← words.mapM (expandWord (outputOf go))
  match fields.flatten with
  | [] => do
    let before := (← get).status
    Action.setStatus 0
    assignWords go assignments
    if words.isEmpty && assignments.isEmpty && rs.isEmpty then Action.setStatus before
    if !rs.isEmpty then withRedirections go line rs (pure ())
  | name :: arguments =>
    if name = "exec" && arguments.isEmpty then do
      if ← redirectAll go line rs then Action.setStatus 0
      else do
        Action.setStatus 2
        throw .exit
    else
      withRedirections go line rs <| withAssignments go assignments <|
        if name = "command" then commandWord go line arguments else invoke go line name arguments

def oneRound (body : Command) : Action Bool := do
  try
    go body
    return true
  catch
    | .leave n => if n ≤ 1 then return false else throw (.leave (n - 1))
    | .next n => if n ≤ 1 then return true else throw (.next (n - 1))
    | stop => throw stop

def mostRounds : Nat := 20000

def rounds (wanted : Bool) (condition body : Command) : Nat → Nat → Action Unit
  | 0, _ => throw .outOfTime
  | left + 1, last => do
    go condition
    if ((← get).status == 0) == wanted then
      if ← oneRound go body then rounds wanted condition body left (← get).status
      else pure ()
    else Action.setStatus last

def eachRound (name : String) (body : Command) : List String → Action Unit
  | [] => pure ()
  | value :: rest => do
    Action.assign name value
    if ← oneRound go body then eachRound name body rest else pure ()

def armMatches (text : List Char) : List Word → Action Bool
  | [] => return false
  | pattern :: rest => do
    let marked ← expandMarked (outputOf go) pattern
    if Glob.matches? (Glob.ofMarked marked) text then return true else armMatches text rest

def chooseArm (text : List Char) : List (List Word × Command) → Action Unit
  | [] => Action.setStatus 0
  | (patterns, body) :: rest => do
    if ← armMatches go text patterns then do
      Action.setStatus 0
      go body
    else chooseArm text rest

end

/-- Runs a command; commands inside it are run one level deeper. -/
def run : Nat → Command → Action Unit
  | 0, _ => throw .outOfTime
  | depth + 1, command =>
    let go := run depth
    match command with
    | .nothing => pure ()
    | .simple line assignments words rs => simple go line assignments words rs
    | .sequence first second => do
      go first
      go second
    | .both first second => do
      go first
      if (← get).status == 0 then go second
    | .either first second => do
      go first
      if (← get).status != 0 then go second
    | .negated command => do
      go command
      Action.setStatus (if (← get).status == 0 then 1 else 0)
    | .pipe first second => do
      let (_, bytes) ← Action.capture (Action.isolated (go first))
      let input := (← get).input
      modify fun p => { p with input := bytes }
      Action.isolated (go second)
      modify fun p => { p with input }
    | .background command => do
      let p ← get
      Action.isolated (go command)
      modify fun q => { q with clock := p.clock, status := 0 }
    | .branch condition yes no => do
      go condition
      if (← get).status == 0 then go yes
      else do
        Action.setStatus 0
        go no
    | .loop wanted condition body => rounds go wanted condition body mostRounds 0
    | .each name words body => do
      let values ← match words with
        | some words => do
          let fields ← words.mapM (expandWord (outputOf go))
          pure fields.flatten
        | none => do pure (← get).arguments
      Action.setStatus 0
      eachRound go name body values
    | .choose word arms => do
      let text ← textOf go word
      chooseArm go text.toList arms
    | .subshell body => Action.isolated (go body)
    | .redirected line body rs => withRedirections go line rs (go body)
    | .define name body => do
      modify fun p => { p with functions := p.functions.insert name body }
      Action.setStatus 0

/-- Deep enough for every script that does not call itself without end. -/
def mostDepth : Nat := 2000

def start (name : String) (arguments : List String) : Action Unit :=
  execute (run mostDepth) Action.complain 10 name arguments

end HanaInsights.Shell
