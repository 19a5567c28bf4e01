import HanaInsights.CommandLine.Surroundings
import Std.Time.DateTime.Timestamp
set_option autoImplicit false

/-!
The agent's command line. What an invocation looks at is read beforehand, its outcome is worked out,
and what it printed, logged and saved is carried out afterwards. Clients that are shell scripts are
followed; no other program is started, and no endpoint can be reached from here.
-/

namespace HanaInsights.CommandLine

def noEndpointReached : Transport := fun _ => .error "no way to the endpoint"

/-- Reads a file, or a directory with the files in it. What cannot be read is left out. -/
def bring (files : FileTree) (path : String) : IO FileTree := do
  let place := placeOf files.working path
  try
    let bytes ← IO.FS.readBinFile path
    return plant files place (.file bytes.toList true)
  catch _ =>
    try
      let here ← IO.currentDir
      let mut tree := plant files place .directory
      for e in ← (here / path).readDir do
        try
          let bytes ← IO.FS.readBinFile e.path
          tree := plant tree (place ++ [e.fileName]) (.file bytes.toList false)
        catch _ => tree := plant tree (place ++ [e.fileName]) .directory
      return tree
    catch _ => return files

def bringAll (files : FileTree) (paths : List String) : IO FileTree := paths.foldlM bring files

def readVariables (env : Environment) (names : List String) : IO Environment :=
  names.foldlM (fun env name => do
    match ← IO.getEnv name with
    | some value => return env.insert name value
    | none => return env) env

def localHostname (env : Environment) : IO String := do
  let name ← try IO.FS.readFile "/proc/sys/kernel/hostname" catch _ => pure ""
  if Text.isBlankText name then return (env.get? "HOSTNAME").getD "unknown"
  else return Text.trim name

def currentSecond : IO Nat := do
  return (← Std.Time.Timestamp.now).toSecondsSinceUnixEpoch.val.toNat

def carryOut (before : FileTree) (o : Outcome) : IO Unit := do
  for (path, entry) in changes before o.files do
    match entry with
    | .directory => IO.FS.createDirAll path
    | .file bytes _ => IO.FS.writeBinFile path ⟨bytes.toArray⟩
  IO.print o.stdout
  match o.failure with
  | some failure => IO.eprintln ("Error: " ++ failure.message)
  | none => pure ()

def agent (arguments : List String) : IO UInt32 := do
  let env ← readVariables Keyed.empty firstVariables
  let here ← IO.currentDir
  let empty : FileTree := { working := placeOf [] here.toString }
  let tree := Shell.Program.install (plant empty empty.working .directory)
  let (tree, env, verbose) ← match read env arguments with
    | .invocation i => do
      let tree ← bringAll tree i.config.toList
      let setting : Setting := ⟨⟨tree, env⟩, "", 0, noEndpointReached⟩
      match (loadConfig setting i.config).value with
      | .ok c => do
        let env ← readVariables env (configVariables c)
        let tree ← bringAll tree (paths setting.host c i.request)
        pure (tree, env, i.verbose)
      | .error _ => pure (tree, env, i.verbose)
    | _ => pure (tree, env, false)
  let setting : Setting :=
    ⟨⟨tree, env⟩, ← localHostname env, ← currentSecond, noEndpointReached⟩
  let done := answer setting arguments
  for line in done.log do
    if isShown verbose line then IO.eprintln (lineText line)
  carryOut tree done.value
  return (done.value.exitCode.getD 143).toUInt32

end HanaInsights.CommandLine

def main (arguments : List String) : IO UInt32 := HanaInsights.CommandLine.agent arguments
