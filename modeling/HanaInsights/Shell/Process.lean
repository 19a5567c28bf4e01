import HanaInsights.Files.Tree
import HanaInsights.Logged
import HanaInsights.Shell.Syntax
set_option autoImplicit false

namespace HanaInsights.Shell

inductive Sink where
  | buffer (index : Nat)
  | file (place : List String)
  | nowhere
  deriving DecidableEq, Repr

structure Process where
  files : FileTree
  assigned : Keyed String
  exported : List String
  functions : Keyed Command
  name : String
  arguments : List String
  status : Nat
  clock : Nat
  limit : Nat
  identity : Nat
  parent : Nat
  /-- The agent that started the first process. -/
  agent : Nat
  nextIdentity : Nat
  signals : List Signal
  input : List UInt8
  sinks : List (Nat × Sink)
  /-- What was written so far, last byte first. -/
  buffers : List (List UInt8)

inductive Stop where
  | exit
  | returned
  | leave (loops : Nat)
  | next (loops : Nat)
  | killed (identity signal : Nat)
  | outOfTime
  deriving DecidableEq, Repr

abbrev Action := EStateM Stop Process

namespace Action

def setStatus (status : Nat) : Action Unit := modify fun p => { p with status }

/-- A process that waits beyond its limit does not come back. -/
def wait (milliseconds : Nat) : Action Unit := do
  modify fun p => { p with clock := p.clock + milliseconds }
  let p ← get
  if p.limit ≤ p.clock then throw .outOfTime

def append (p : Process) (bytes : List UInt8) : Sink → Process
  | .nowhere => p
  | .buffer index =>
    { p with buffers := p.buffers.modify index fun old => bytes.reverse ++ old }
  | .file place =>
    match p.files.entry? place with
    | some (.file old executable) =>
      { p with files := p.files.put place (.file (old ++ bytes) executable) }
    | _ => p

def sinkOf (p : Process) (descriptor : Nat) : Sink := (p.sinks.lookup descriptor).getD .nowhere

def write (descriptor : Nat) (bytes : List UInt8) : Action Unit :=
  modify fun p => append p bytes (sinkOf p descriptor)

def print (text : String) : Action Unit := write 1 (Utf8.encode text)

def complain (text : String) : Action Unit := write 2 (Utf8.encode (text ++ "\n"))

def assign (name value : String) : Action Unit :=
  modify fun p => { p with assigned := p.assigned.insert name value }

def environment (p : Process) : Keyed String :=
  Keyed.ofList (p.assigned.entries.filter fun e => p.exported.contains e.1)

def capture {α : Type} (action : Action α) : Action (α × List UInt8) := do
  let p ← get
  let index := p.buffers.length
  set { p with buffers := p.buffers ++ [[]], sinks := (1, .buffer index) :: p.sinks }
  let result ← action
  let q ← get
  set { q with buffers := q.buffers.take index, sinks := p.sinks }
  return (result, (q.buffers.getD index []).reverse)

/-- What a process of its own may change without its parent seeing it. -/
def isolated (action : Action Unit) : Action Unit := do
  let p ← get
  let restore : Action Unit := modify fun q =>
    { q with
      assigned := p.assigned, exported := p.exported, functions := p.functions,
      name := p.name, arguments := p.arguments, identity := p.identity, parent := p.parent,
      input := p.input, sinks := p.sinks,
      files := { q.files with working := p.files.working } }
  try
    action
  catch
    | .exit | .returned | .leave _ | .next _ => pure ()
    | stop => do restore; throw stop
  restore

end Action
end HanaInsights.Shell
