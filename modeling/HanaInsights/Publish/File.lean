import HanaInsights.Config.Basic
import HanaInsights.DomainError
import HanaInsights.Files.Tree
import HanaInsights.Wording
set_option autoImplicit false

/-!
Runs saved to files. The name of a file is made of the host and the second of its run; characters
of the host that are not plain stand as underscores, so no host name leads out of the directory.
-/

namespace HanaInsights

structure FilePublisher where
  directory : String
  format : OutputFormat
  deriving DecidableEq, Repr

namespace FilePublisher

def ofConfig? (c : OutputConfig) : Option FilePublisher :=
  c.directory.map fun directory => ⟨directory, c.format⟩

def isPlainHostChar (c : Char) : Bool :=
  isDigit c || ('a' ≤ c && c ≤ 'z') || ('A' ≤ c && c ≤ 'Z') || c == '-'

def hostPart (hostname : String) : List Char :=
  hostname.toList.map fun c => if isPlainHostChar c then c else '_'

def fileNameChars (format : OutputFormat) (run : Run) : List Char :=
  hostPart run.hostname ++ "_insights_".toList ++ Nat.toDigits 10 run.generatedAt ++
    '.' :: format.extension.toList

def fileName (format : OutputFormat) (run : Run) : String :=
  String.ofList (fileNameChars format run)

def pathFor (p : FilePublisher) (run : Run) : String :=
  Path.join p.directory (fileName p.format run)

end FilePublisher

/-- Files and what writing to them came to; a failure leaves them as they became on the way. -/
abbrev Written := FileTree × Except PublishError Unit

namespace Run

/-- The path up to its last name, idle parts in front of the name left out; empty if there is no
name. -/
def parentOf (path : String) : String :=
  match (Path.splitChars path.toList).reverse.dropWhile Path.isIdle with
  | [] => ""
  | _ :: before =>
    match (before.dropWhile Path.isIdle).reverse with
    | [] => Path.origin path
    | front => "/".intercalate (front.map String.ofList)

def writeText (files : FileTree) (path text : String) : Written :=
  match files.growDirectories (parentOf path) with
  | (files, .error fault) =>
    (files, .error (.fileFailed ("Failed to create directory: " ++ fault.message)))
  | (files, .ok ()) =>
    match files.write path (Utf8.encode text) with
    | .error fault =>
      (files, .error (.fileFailed ("Failed to write " ++ path ++ ": " ++ fault.message)))
    | .ok files => (files, .ok ())

/-- A run that cannot be written in its format touches no file. -/
def save (files : FileTree) (format : OutputFormat) (path : String) (run : Run)
    (words : Wording := {}) : Written :=
  match run.render? format with
  | none =>
    (files, .error (.serializationFailed
      (format.source.title ++ " serialization failed: " ++ words.count)))
  | some text => writeText files path text

def load (files : FileTree) (format : OutputFormat) (path : String) (words : Wording := {}) :
    Except PublishError Run :=
  match files.readText path with
  | .error fault => .error (.fileFailed ("Failed to read " ++ path ++ ": " ++ fault.message))
  | .ok text =>
    match read? format text with
    | some run => .ok run
    | none => .error (.serializationFailed
        (format.source.title ++ " deserialization failed: " ++ words.run format.source text))

end Run

namespace FilePublisher

def publish (p : FilePublisher) (files : FileTree) (run : Run) (words : Wording := {}) :
    Logged Written :=
  let path := p.pathFor run
  match run.save files p.format path words with
  | (files, .ok ()) => .withLog (files, .ok ()) [infoLine ("Insights saved to " ++ path)]
  | failed => pure failed

def reach (p : FilePublisher) (files : FileTree) : FileTree × Bool :=
  match files.growDirectories p.directory with
  | (files, .ok ()) => (files, true)
  | (files, .error _) => (files, false)

end FilePublisher
end HanaInsights
