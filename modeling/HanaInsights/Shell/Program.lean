import HanaInsights.Shell.Process
set_option autoImplicit false

namespace HanaInsights.Shell

inductive Utility where
  | cat | echo | env | false | head | kill | ls | printf | pwd | seq | sh | sleep | test | true
  | which
  deriving DecidableEq, Repr

namespace Utility

def all : List Utility :=
  [.cat, .echo, .env, .false, .head, .kill, .ls, .printf, .pwd, .seq, .sh, .sleep, .test, .true,
    .which]

def name : Utility → String
  | .cat => "cat"
  | .echo => "echo"
  | .env => "env"
  | .false => "false"
  | .head => "head"
  | .kill => "kill"
  | .ls => "ls"
  | .printf => "printf"
  | .pwd => "pwd"
  | .seq => "seq"
  | .sh => "sh"
  | .sleep => "sleep"
  | .test => "test"
  | .true => "true"
  | .which => "which"

def ofName? (s : String) : Option Utility :=
  if s = "[" then some .test
  else if s = "dash" then some .sh
  else all.find? fun u => u.name == s

end Utility

namespace Program

/-- The bytes that mark a file as holding a utility, whose name follows. -/
def mark : List UInt8 := [0x7F, 0x45, 0x4C, 0x46]

def contentOf (u : Utility) : List UInt8 := mark ++ Utf8.encode u.name

def defaultPath : String := "/usr/local/sbin:/usr/local/bin:/usr/sbin:/usr/bin:/sbin:/bin"

def executable? (files : FileTree) (path : String) : Except FileFault (List UInt8) := do
  let place ← files.locate path
  match files.entry? place with
  | some (.file bytes true) => .ok bytes
  | some _ => .error .permissionDenied
  | none => .error .notFound

def candidate (dir name : String) : String :=
  if dir.isEmpty then "./" ++ name else dir ++ "/" ++ name

/-- Looks through the directories; one that denies the program is remembered. -/
def searchIn (files : FileTree) (name : String) :
    FileFault → List String → Except FileFault String
  | fault, [] => .error fault
  | fault, dir :: dirs =>
    match executable? files (candidate dir name) with
    | .ok _ => .ok (candidate dir name)
    | .error .permissionDenied => searchIn files name .permissionDenied dirs
    | .error _ => searchIn files name fault dirs

def directories (path : String) : List String :=
  (path.splitOn ":")

def find? (files : FileTree) (path name : String) : Except FileFault String :=
  if name.toList.contains '/' then (executable? files name).map fun _ => name
  else if name.isEmpty then .error .notFound
  else if FileTree.nameLimit < name.utf8ByteSize then .error .nameTooLong
  else searchIn files name .notFound (directories path)

structure Image where
  utility : Utility
  before : List String

def interpreter? (bytes : List UInt8) : Option (String × List String) :=
  match bytes with
  | 0x23 :: 0x21 :: rest =>
    let line := (Utf8.decodeLossy (rest.takeWhile (· != 10))).toList
    let isGap (c : Char) : Bool := c == ' ' || c == '\t'
    let line := line.dropWhile isGap
    let name := line.takeWhile fun c => !isGap c
    let argument := ((line.drop name.length).dropWhile isGap).reverse.dropWhile isGap
    some (String.ofList name, if argument.isEmpty then [] else [String.ofList argument.reverse])
  | _ => none

/-- Interpreters may be scripts themselves, a few levels deep. -/
def imageOfFuel (files : FileTree) : Nat → String → Except FileFault Image
  | 0, _ => .error .notProgram
  | fuel + 1, path => do
    let bytes ← executable? files path
    match interpreter? bytes with
    | some (name, argument) => do
      let image ← imageOfFuel files fuel name
      .ok { image with before := image.before ++ argument ++ [path] }
    | none =>
      if mark.isPrefixOf bytes then
        match Utility.ofName? (Utf8.decodeLossy (bytes.drop mark.length)) with
        | some u => .ok ⟨u, []⟩
        | none => .error .notProgram
      else .error .notProgram

def imageOf (files : FileTree) (path : String) : Except FileFault Image := imageOfFuel files 5 path

/-- Programs that are there to be found but cannot be followed. -/
def others : List String :=
  ["awk", "base64", "basename", "bash", "chmod", "cp", "cut", "date", "dd", "diff", "dirname",
    "expr", "find", "grep", "gzip", "hostname", "id", "ln", "mkdir", "mktemp", "mv", "nice", "od",
    "perl", "rm", "rmdir", "sed", "sort", "stat", "tail", "tar", "tee", "timeout", "touch", "tr",
    "uname", "uniq", "wc", "xargs", "yes"]

def installProgram (name : String) (bytes : List UInt8) (files : FileTree) : FileTree :=
  (files.put ["bin", name] (.file bytes true)).put ["usr", "bin", name] (.file bytes true)

def install (files : FileTree) : FileTree :=
  let directories := [["bin"], ["dev"], ["etc"], ["tmp"], ["usr"], ["usr", "bin"]]
  let files := directories.foldl (fun files place => files.put place .directory) files
  let users := Utf8.encode "root:x:0:0:root:/root:/bin/sh\n"
  let files := files.put ["etc", "passwd"] (.file users false)
  let files := Utility.all.foldl (fun files u => installProgram u.name (contentOf u) files) files
  let files := installProgram "[" (contentOf .test) files
  let files := installProgram "dash" (contentOf .sh) files
  others.foldl (fun files name => installProgram name (mark ++ Utf8.encode name) files) files

end Program
end HanaInsights.Shell
