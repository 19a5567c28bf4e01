import HanaInsights.Toml.Number
set_option autoImplicit false

/-!
Reading TOML documents. Each header opens a table, each key-value pair sets a key of the open one.
No key is set twice; a table is defined once, by a header, by dotted keys or inline, and the array
of tables that a `[[header]]` extends holds nothing but tables defined that way.
-/

namespace HanaInsights.Toml

/-- What a key of a table under construction holds. A table is implicit while only paths through it
have been seen, and dotted if keys made it; the tables of an array are held last first. -/
inductive Item where
  | value (v : Toml)
  | table (implicit dotted : Bool) (entries : List (String × Item))
  | tables (elements : List (List (String × Item)))

abbrev Entries := List (String × Item)

def find? (key : String) : Entries → Option Item
  | [] => none
  | (k, item) :: rest => if k = key then some item else find? key rest

def put (key : String) (item : Item) : Entries → Entries
  | [] => [(key, item)]
  | (k, old) :: rest => if k = key then (k, item) :: rest else (k, old) :: put key item rest

/-- Changes the table at the end of a path, making the tables on the way. A path of a dotted key
does not lead into a table that a header has defined. -/
def adjust (dotted : Bool) (change : Bool → Entries → Option Entries) :
    List String → Bool → Entries → Option Entries
  | [], isDotted, entries => change isDotted entries
  | key :: path, _, entries =>
    match find? key entries with
    | none => do
      let inner ← adjust dotted change path dotted []
      some (put key (.table true dotted inner) entries)
    | some (.value _) => none
    | some (.tables []) => none
    | some (.tables (last :: earlier)) => do
      let last ← adjust dotted change path false last
      some (put key (.tables (last :: earlier)) entries)
    | some (.table implicit isDotted inner) =>
      if dotted && !implicit then none
      else do
        let inner ← adjust dotted change path isDotted inner
        some (put key (.table implicit isDotted inner) entries)

/-- A pair with a plain key goes into a table that keys did not make, one with a dotted key into a
table that they did. -/
def setPair (path : List String) (key : String) (item : Item) (entries : Entries) :
    Option Entries :=
  adjust true
    (fun isDotted entries =>
      if isDotted == path.isEmpty then none
      else match find? key entries with
        | none => some (put key item entries)
        | some _ => none) path false entries

/-- The table of a header may have been passed through before, not defined. -/
def openTable (path : List String) (key : String) (entries : Entries) : Option Entries :=
  adjust false
    (fun _ entries =>
      match find? key entries with
      | none => some (put key (.table false false []) entries)
      | some (.table true false inner) => some (put key (.table false false inner) entries)
      | some _ => none) path false entries

def openElement (path : List String) (key : String) (entries : Entries) : Option Entries :=
  adjust false
    (fun _ entries =>
      match find? key entries with
      | none => some (put key (.tables [[]]) entries)
      | some (.tables elements) => some (put key (.tables ([] :: elements)) entries)
      | some _ => none) path false entries

mutual

def Item.toToml : Item → Toml
  | .value v => v
  | .table _ _ entries => .table (entriesToToml entries)
  | .tables elements => .array (elementsToToml elements)

def entriesToToml : List (String × Item) → List (String × Toml)
  | [] => []
  | (key, item) :: rest => (key, item.toToml) :: entriesToToml rest

def elementsToToml : List (List (String × Item)) → List Toml
  | [] => []
  | entries :: earlier => elementsToToml earlier ++ [.table (entriesToToml entries)]

end

def splitLast? (parts : List String) : Option (List String × String) :=
  match parts.reverse with
  | [] => none
  | key :: path => some (path.reverse, key)

def arrayItems (value : List Char → Option (Toml × List Char)) :
    Nat → List Char → Option (List Toml × List Char)
  | 0, _ => none
  | fuel + 1, cs =>
    match trivia cs with
    | ']' :: rest => some ([], rest)
    | cs => do
      let (item, rest) ← value cs
      match trivia rest with
      | ']' :: rest => some ([item], rest)
      | ',' :: rest => do
        let (items, rest) ← arrayItems value fuel rest
        some (item :: items, rest)
      | _ => none

def pair? (value : List Char → Option (Toml × List Char)) (cs : List Char) :
    Option ((List String × String × Toml) × List Char) := do
  let (parts, rest) ← key? cs
  let rest ← expect? '=' rest
  let (v, rest) ← value (skipSpace rest)
  let (path, key) ← splitLast? parts
  some ((path, key, v), rest)

def inlinePairs (value : List Char → Option (Toml × List Char)) :
    Nat → Entries → List Char → Option (Entries × List Char)
  | 0, _, _ => none
  | fuel + 1, entries, cs => do
    let ((path, key, v), rest) ← pair? value cs
    let entries ← setPair path key (.value v) entries
    match skipSpace rest with
    | '}' :: rest => some (entries, rest)
    | ',' :: rest => inlinePairs value fuel entries rest
    | _ => none

def inlineTable? (value : List Char → Option (Toml × List Char)) (cs : List Char) :
    Option (Toml × List Char) :=
  match skipSpace cs with
  | '}' :: rest => some (.table [], rest)
  | cs => do
    let (entries, rest) ← inlinePairs value (cs.length + 1) [] cs
    some (.table (entriesToToml entries), rest)

def scalar? : List Char → Option (Toml × List Char)
  | 't' :: 'r' :: 'u' :: 'e' :: rest => some (.bool true, rest)
  | 'f' :: 'a' :: 'l' :: 's' :: 'e' :: rest => some (.bool false, rest)
  | '"' :: rest => (string? ('"' :: rest)).map fun (s, rest) => (.string s, rest)
  | '\'' :: rest => (string? ('\'' :: rest)).map fun (s, rest) => (.string s, rest)
  | cs => number? cs

def valueAt : Nat → List Char → Option (Toml × List Char)
  | 0, cs => scalar? cs
  | depth + 1, '[' :: rest => do
    let (items, rest) ← arrayItems (valueAt depth) (rest.length + 1) rest
    some (.array items, rest)
  | depth + 1, '{' :: rest => inlineTable? (valueAt depth) rest
  | _ + 1, cs => scalar? cs

def value? : List Char → Option (Toml × List Char) := valueAt (depthLimit - 1)

structure Draft where
  root : Entries := []
  open_ : List String := []

def headerLine? (d : Draft) (cs : List Char) : Option (Draft × List Char) := do
  let (parts, rest) ← key? cs
  let rest ← expect? ']' rest
  let rest ← endOfLine? rest
  let (path, key) ← splitLast? parts
  let root ← openTable path key d.root
  some (⟨root, parts⟩, rest)

def elementLine? (d : Draft) (cs : List Char) : Option (Draft × List Char) := do
  let (parts, rest) ← key? cs
  let rest ← expect? ']' rest
  let rest ← expect? ']' rest
  let rest ← endOfLine? rest
  let (path, key) ← splitLast? parts
  let root ← openElement path key d.root
  some (⟨root, parts⟩, rest)

def pairLine? (d : Draft) (cs : List Char) : Option (Draft × List Char) := do
  let ((path, key, v), rest) ← pair? value? cs
  let rest ← endOfLine? rest
  let root ←
    adjust false (fun _ entries => setPair path key (.value v) entries) d.open_ false d.root
  some ({ d with root }, rest)

def line? (d : Draft) (cs : List Char) : Option (Draft × List Char) :=
  match skipSpace cs with
  | '[' :: '[' :: rest => elementLine? d rest
  | '[' :: rest => headerLine? d rest
  | cs =>
    match endOfLine? cs with
    | some rest => some (d, rest)
    | none => pairLine? d cs

/-- Every line has at least its end, so the length of the text is fuel enough. -/
def lines? : Nat → Draft → List Char → Option Draft
  | _, d, [] => some d
  | 0, _, _ => none
  | fuel + 1, d, cs =>
    match line? d cs with
    | some (d, rest) => lines? fuel d rest
    | none => none

def skipByteOrderMark : List Char → List Char
  | '\uFEFF' :: rest => rest
  | cs => cs

def readChars? (cs : List Char) : Option Toml :=
  (lines? cs.length {} (skipByteOrderMark cs)).map fun d => .table (entriesToToml d.root)

def read? (text : String) : Option Toml := readChars? text.toList

end HanaInsights.Toml
