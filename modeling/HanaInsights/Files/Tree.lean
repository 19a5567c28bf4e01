import HanaInsights.Keyed
import HanaInsights.Text.Utf8
set_option autoImplicit false

/-!
A tree of files and directories, and what reading, listing and writing by path do to it. Paths are
walked one part at a time: each part but the last has to lead to a directory. Names are texts: a
name whose bytes are no text in UTF-8 has no place here.
-/

namespace HanaInsights

inductive FileFault where
  | notFound
  | permissionDenied
  | exists_
  | notDirectory
  | isDirectory
  | nameTooLong
  | notProgram
  | nulInName
  | notText
  deriving DecidableEq, Repr

/-- The system's number for the fault; a name that cannot be passed to the system and a text that
cannot be decoded are no faults of the system. -/
def FileFault.number? : FileFault → Option Nat
  | .notFound => some 2
  | .notProgram => some 8
  | .permissionDenied => some 13
  | .exists_ => some 17
  | .notDirectory => some 20
  | .isDirectory => some 21
  | .nameTooLong => some 36
  | .nulInName => none
  | .notText => none

def FileFault.reason : FileFault → String
  | .notFound => "No such file or directory"
  | .notProgram => "Exec format error"
  | .permissionDenied => "Permission denied"
  | .exists_ => "File exists"
  | .notDirectory => "Not a directory"
  | .isDirectory => "Is a directory"
  | .nameTooLong => "File name too long"
  | .nulInName => "file name contained an unexpected NUL byte"
  | .notText => "stream did not contain valid UTF-8"

def FileFault.message (fault : FileFault) : String :=
  match fault.number? with
  | some n => fault.reason ++ " (os error " ++ toString n ++ ")"
  | none => fault.reason

inductive FileEntry where
  | directory
  | file (bytes : List UInt8) (executable : Bool)
  deriving DecidableEq, Repr

/-- Entries under their full names: a slash before each part, so that the root is the empty name. -/
structure FileTree where
  entries : Keyed FileEntry := Keyed.empty
  working : List String := []

namespace Path

def splitChars : List Char → List (List Char)
  | [] => [[]]
  | c :: rest =>
    if c = '/' then [] :: splitChars rest
    else match splitChars rest with
      | part :: parts => (c :: part) :: parts
      | [] => [[c]]

def parts (path : String) : List String := (splitChars path.toList).map String.ofList

def isAbsolute (path : String) : Bool := path.toList.head? == some '/'

/-- Joining to an absolute path drops what stands before. -/
def join (base name : String) : String :=
  if isAbsolute name then name
  else if base.isEmpty then name
  else if base.toList.getLast? == some '/' then base ++ name
  else base ++ "/" ++ name

def isIdle (part : List Char) : Bool := part.isEmpty || part == ['.']

def origin (path : String) : String :=
  if isAbsolute path then "/"
  else if (splitChars path.toList).head? == some ['.'] then "."
  else ""

/-- The text after the last dot, if something stands before that dot. -/
def extension? (name : String) : Option String :=
  let tail := name.toList.reverse
  match tail.dropWhile (· != '.') with
  | '.' :: _ :: _ => some (String.ofList (tail.takeWhile (· != '.')).reverse)
  | _ => none

end Path

namespace FileTree

def fullName (place : List String) : String := String.join (place.map ("/" ++ ·))

def entry? (t : FileTree) (place : List String) : Option FileEntry :=
  if place.isEmpty then some .directory else t.entries.get? (fullName place)

def nameLimit : Nat := 255

def checkName (name : String) : Except FileFault Unit :=
  if nameLimit < name.utf8ByteSize then .error .nameTooLong else .ok ()

def pathLimit : Nat := 4095

def checkPath (path : String) : Except FileFault Unit :=
  if path.toList.contains '\x00' then .error .nulInName
  else if pathLimit < path.utf8ByteSize then .error .nameTooLong
  else .ok ()

def walk (t : FileTree) : List String → List String → Except FileFault (List String)
  | place, [] => .ok place
  | place, part :: parts =>
    match t.entry? place with
    | none => .error .notFound
    | some (.file _ _) => .error .notDirectory
    | some .directory =>
      if part = "" ∨ part = "." then walk t place parts
      else if part = ".." then walk t place.dropLast parts
      else do
        checkName part
        match t.entry? (place ++ [part]) with
        | none => .error .notFound
        | some _ => walk t (place ++ [part]) parts

def startOf (t : FileTree) (path : String) : List String :=
  if Path.isAbsolute path then [] else t.working

def locate (t : FileTree) (path : String) : Except FileFault (List String) := do
  checkPath path
  if path.isEmpty then .error .notFound else t.walk (t.startOf path) (Path.parts path)

def find? (t : FileTree) (path : String) : Option FileEntry :=
  match t.locate path with
  | .ok place => t.entry? place
  | .error _ => none

def isFile (t : FileTree) (path : String) : Bool :=
  match t.find? path with
  | some (.file _ _) => true
  | _ => false

def read (t : FileTree) (path : String) : Except FileFault (List UInt8) := do
  match t.entry? (← t.locate path) with
  | some (.file bytes _) => .ok bytes
  | some .directory => .error .isDirectory
  | none => .error .notFound

def textOf (bytes : List UInt8) : Except FileFault String :=
  match Utf8.decode? bytes with
  | some text => .ok text
  | none => .error .notText

def readText (t : FileTree) (path : String) : Except FileFault String := do
  textOf (← t.read path)

def below (t : FileTree) (place : List String) : List (String × FileEntry) :=
  let stem := (fullName place ++ "/").toList
  t.entries.entries.filterMap fun e =>
    if stem.isPrefixOf e.1.toList then
      let name := e.1.toList.drop stem.length
      if name.contains '/' then none else some (String.ofList name, e.2)
    else none

def list (t : FileTree) (path : String) : Except FileFault (List (String × FileEntry)) := do
  let place ← t.locate path
  match t.entry? place with
  | some .directory => .ok (t.below place)
  | some (.file _ _) => .error .notDirectory
  | none => .error .notFound

def put (t : FileTree) (place : List String) (entry : FileEntry) : FileTree :=
  { t with entries := t.entries.insert (fullName place) entry }

/-- Follows the parts and makes the directories that are missing on the way. What was made before a
fault stays. -/
def growWay (t : FileTree) :
    List String → List String → FileTree × Except FileFault (List String)
  | place, [] => (t, .ok place)
  | place, part :: parts =>
    match t.entry? place with
    | none => (t, .error .notFound)
    | some (.file _ _) => (t, .error .notDirectory)
    | some .directory =>
      if part = "" ∨ part = "." then growWay t place parts
      else if part = ".." then growWay t place.dropLast parts
      else
        match checkName part with
        | .error fault => (t, .error fault)
        | .ok () =>
          match t.entry? (place ++ [part]) with
          | none => growWay (t.put (place ++ [part]) .directory) (place ++ [part]) parts
          | some _ => growWay t (place ++ [part]) parts

def makeWay (t : FileTree) (place parts : List String) :
    Except FileFault (FileTree × List String) :=
  let (grown, reached) := t.growWay place parts
  reached.map fun goal => (grown, goal)

/-- Makes the directory of a path with all that is missing above it. The empty path asks for
nothing. -/
def growDirectories (t : FileTree) (path : String) : FileTree × Except FileFault Unit :=
  if path.isEmpty then (t, .ok ())
  else
    match checkPath path with
    | .error fault => (t, .error fault)
    | .ok () =>
      match t.growWay (t.startOf path) (Path.parts path) with
      | (grown, .error fault) => (grown, .error fault)
      | (grown, .ok place) =>
        match grown.entry? place with
        | some (.file _ _) => (grown, .error .exists_)
        | _ => (grown, .ok ())

def makeDirectories (t : FileTree) (path : String) : Except FileFault FileTree :=
  let (grown, made) := t.growDirectories path
  made.map fun () => grown

/-- A file that is there keeps its permission. -/
def writeAt (t : FileTree) (place : List String) (name : String) (bytes : List UInt8) :
    Except FileFault FileTree := do
  match t.entry? place with
  | none => .error .notFound
  | some (.file _ _) => .error .notDirectory
  | some .directory =>
    checkName name
    match t.entry? (place ++ [name]) with
    | some .directory => .error .isDirectory
    | some (.file _ executable) => .ok (t.put (place ++ [name]) (.file bytes executable))
    | none => .ok (t.put (place ++ [name]) (.file bytes false))

def write (t : FileTree) (path : String) (bytes : List UInt8) : Except FileFault FileTree := do
  checkPath path
  match (Path.parts path).reverse with
  | [] => .error .notFound
  | name :: parents =>
    if name = "" ∨ name = "." ∨ name = ".." then .error .isDirectory
    else do
      let place ← t.walk (t.startOf path) parents.reverse
      t.writeAt place name bytes

end FileTree
end HanaInsights
