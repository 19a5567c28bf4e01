import HanaInsights.Files.Tree
import HanaInsights.Json.Reader
import HanaInsights.Logged
import HanaInsights.Rule.Document
import HanaInsights.Rule.Validation
import HanaInsights.Toml.Reader
import HanaInsights.Wording
set_option autoImplicit false

/-!
Rules from a directory. The regular files named `*.json` and `*.toml` are read in the order of their
names, which are texts; the first one that cannot be read or decoded is the answer. How the
directory was listed makes no difference.
-/

namespace HanaInsights

/-- One name of a directory; only a regular file has content, which may be unreadable. -/
structure DirectoryEntry where
  name : String
  content : Option (Except FileFault (List UInt8))

namespace RuleFiles

def source (name : String) : Json.Source :=
  if Path.extension? name = some "toml" then .toml else .json

def decode? (name text : String) : Option (List Rule) :=
  if Path.extension? name = some "toml" then
    (Toml.read? text).bind fun v => RuleSet.ofJson? v.toJson
  else (Json.read? text).bind RuleSet.ofJson?

def isRuleFile (e : DirectoryEntry) : Bool :=
  (Path.extension? e.name == some "json" || Path.extension? e.name == some "toml") &&
    e.content.isSome

def inNameOrder (entries : List DirectoryEntry) : List DirectoryEntry :=
  entries.mergeSort fun a b => decide (a.name ≤ b.name)

def loadFile (dir : String) (e : DirectoryEntry) (words : Wording := {}) :
    Except RuleError (List Rule) :=
  let path := Path.join dir e.name
  match e.content with
  | none => .ok []
  | some (.error fault) => .error (.unreadable path fault.message)
  | some (.ok bytes) =>
    match FileTree.textOf bytes with
    | .error fault => .error (.unreadable path fault.message)
    | .ok text =>
      match decode? e.name text with
      | some rules => .ok rules
      | none => .error (.malformed path (words.rules (source e.name) text))

def loadAll (dir : String) (words : Wording) :
    List DirectoryEntry → Logged (Except RuleError (List Rule))
  | [] => pure (.ok [])
  | e :: rest =>
    match loadFile dir e words with
    | .error fault => pure (.error fault)
    | .ok rules => do
      Logged.write .debug
        ("Loaded " ++ toString rules.length ++ " rules from " ++ Path.join dir e.name)
      match ← loadAll dir words rest with
      | .error fault => pure (.error fault)
      | .ok more => pure (.ok (rules ++ more))

def ofListing (dir : String) (entries : List DirectoryEntry) (words : Wording := {}) :
    Logged (Except RuleError (List Rule)) := do
  match ← loadAll dir words (inNameOrder (entries.filter isRuleFile)) with
  | .error fault => pure (.error fault)
  | .ok rules => do
    Logged.write .info ("Loaded " ++ toString rules.length ++ " rules from " ++ dir)
    pure (.ok rules)

def listing (found : List (String × FileEntry)) : List DirectoryEntry :=
  found.map fun (name, entry) =>
    match entry with
    | .file bytes _ => ⟨name, some (.ok bytes)⟩
    | .directory => ⟨name, none⟩

def load (files : FileTree) (dir : String) (words : Wording := {}) :
    Logged (Except RuleError (List Rule)) :=
  match files.list dir with
  | .error fault => pure (.error (.unreadable dir fault.message))
  | .ok found => ofListing dir (listing found) words

end RuleFiles
end HanaInsights
