import HanaInsights.Shell.Syntax
set_option autoImplicit false

/-!
Reading shell scripts. A word ends at an unquoted blank or operator; reserved words count only where
a command may start. None is a syntax error.
-/

namespace HanaInsights.Shell

def isNameStart (c : Char) : Bool := c.isAlpha || c == '_'

def isNameChar (c : Char) : Bool := c.isAlphanum || c == '_'

def isMeta (c : Char) : Bool :=
  c == ' ' || c == '\t' || c == '\n' || c == ';' || c == '&' || c == '|' || c == '<' || c == '>' ||
    c == '(' || c == ')'

/-- The text up to the parenthesis or brace that matches one already open. Quotes hide both. -/
def enclosed (opening closing : Char) :
    Nat → Option Char → List Char → Option (List Char × List Char)
  | _, _, [] => none
  | depth, some q, c :: cs =>
    let quote := if c = q then none else some q
    (enclosed opening closing depth quote cs).map fun (inner, rest) => (c :: inner, rest)
  | depth, none, '\\' :: c :: cs =>
    (enclosed opening closing depth none cs).map fun (inner, rest) => ('\\' :: c :: inner, rest)
  | depth, none, c :: cs =>
    if c = closing then
      match depth with
      | 0 => some ([], cs)
      | depth + 1 =>
        (enclosed opening closing depth none cs).map fun (inner, rest) => (c :: inner, rest)
    else
      let quote := if c = '"' ∨ c = '\x27' then some c else none
      let depth := if c = opening then depth + 1 else depth
      (enclosed opening closing depth quote cs).map fun (inner, rest) => (c :: inner, rest)

def backquoted : List Char → Option (List Char × List Char)
  | [] => none
  | '\x60' :: cs => some ([], cs)
  | '\\' :: c :: cs =>
    (backquoted cs).map fun (inner, rest) =>
      if c = '\x60' ∨ c = '\\' ∨ c = '$' then (c :: inner, rest) else ('\\' :: c :: inner, rest)
  | c :: cs => (backquoted cs).map fun (inner, rest) => (c :: inner, rest)

def isSpecial (c : Char) : Bool := "@*#?$!-".toList.contains c

def parameterName : List Char → Option (String × List Char)
  | [] => none
  | c :: cs =>
    if isNameStart c then
      some (String.ofList (c :: cs.takeWhile isNameChar), cs.dropWhile isNameChar)
    else if c.isDigit || isSpecial c then some (c.toString, cs)
    else none

def trimChange (front : Bool) : List Char → Change
  | [] => .trim front false ""
  | c :: cs =>
    if c = (if front then '#' else '%') then .trim front true (String.ofList cs)
    else .trim front false (String.ofList (c :: cs))

def change? : List Char → Option Change
  | [] => some .plain
  | ':' :: '-' :: cs => some (.default true (String.ofList cs))
  | '-' :: cs => some (.default false (String.ofList cs))
  | ':' :: '+' :: cs => some (.alternative true (String.ofList cs))
  | '+' :: cs => some (.alternative false (String.ofList cs))
  | '#' :: cs => some (trimChange true cs)
  | '%' :: cs => some (trimChange false cs)
  | _ => none

def bracedParameter? (quoted : Bool) : List Char → Option Piece
  | ['#'] => some (.parameter quoted "#" .plain)
  | '#' :: cs =>
    match parameterName cs with
    | some (name, []) => some (.parameter quoted name .length)
    | _ => none
  | cs =>
    match cs.takeWhile Char.isDigit, cs.dropWhile Char.isDigit with
    | d :: ds, rest => (change? rest).map (.parameter quoted (String.ofList (d :: ds)))
    | [], _ =>
      match parameterName cs with
      | some (name, rest) => (change? rest).map (.parameter quoted name)
      | none => none

def dollar (quoted : Bool) : List Char → Option (Piece × List Char)
  | '(' :: '(' :: cs =>
    match enclosed '(' ')' 0 none cs with
    | some (inner, ')' :: rest) => some (.number quoted (String.ofList inner), rest)
    | _ => none
  | '(' :: cs =>
    (enclosed '(' ')' 0 none cs).map fun (inner, rest) =>
      (.output quoted (String.ofList inner), rest)
  | '\x7b' :: cs =>
    match enclosed '\x7b' '\x7d' 0 none cs with
    | some (inner, rest) => (bracedParameter? quoted inner).map fun piece => (piece, rest)
    | none => none
  | cs =>
    match parameterName cs with
    | some (name, rest) => some (.parameter quoted name .plain, rest)
    | none => some (.text quoted ['$'], cs)

/-- Inside double quotes a backslash keeps its meaning before a few characters only. -/
def escapesInQuotes (c : Char) : Bool := c == '$' || c == '\x60' || c == '"' || c == '\\'

def cons? (piece : Piece) (read : Option (Word × List Char)) : Option (Word × List Char) :=
  read.map fun (word, rest) => (piece :: word, rest)

/-- The pieces of a word; the flag says whether a double quote is open. In a text, blanks and
operators are ordinary and only the end of the text ends the word. -/
def pieces (inText : Bool) : Nat → Bool → List Char → Option (Word × List Char)
  | 0, _, _ => none
  | _ + 1, true, [] => if inText then some ([], []) else none
  | _ + 1, false, [] => some ([], [])
  | fuel + 1, double, c :: cs =>
    if c = '\\' then
      match cs with
      | '\n' :: cs => pieces inText fuel double cs
      | d :: rest =>
        if double && !escapesInQuotes d then
          cons? (.text true ['\\']) (pieces inText fuel double cs)
        else cons? (.text true [d]) (pieces inText fuel double rest)
      | [] => some ([.text true ['\\']], [])
    else if c = '$' then
      match dollar double cs with
      | some (piece, rest) => cons? piece (pieces inText fuel double rest)
      | none => none
    else if c = '\x60' then
      match backquoted cs with
      | some (inner, rest) =>
        cons? (.output double (String.ofList inner)) (pieces inText fuel double rest)
      | none => none
    else if c = '"' && !inText then cons? (.text true []) (pieces inText fuel (!double) cs)
    else if double then cons? (.text true [c]) (pieces inText fuel double cs)
    else if c = '\x27' then
      match cs.dropWhile (· != '\x27') with
      | _ :: rest =>
        cons? (.text true (cs.takeWhile (· != '\x27'))) (pieces inText fuel double rest)
      | [] => none
    else if isMeta c then some ([], c :: cs)
    else cons? (.text false [c]) (pieces inText fuel double cs)

def word? (cs : List Char) : Option (Word × List Char) := pieces false (cs.length + 1) false cs

def textWord (text : String) : Word :=
  match pieces true (text.length + 1) true text.toList with
  | some (word, _) => word
  | none => [.text true text.toList]

/-! ## Commands -/

def skipBlanks : List Char → List Char
  | ' ' :: cs => skipBlanks cs
  | '\t' :: cs => skipBlanks cs
  | '\\' :: '\n' :: cs => skipBlanks cs
  | '#' :: cs => cs.dropWhile (· != '\n')
  | cs => cs

def skipLines : Nat → List Char → List Char
  | 0, cs => cs
  | fuel + 1, cs =>
    match skipBlanks cs with
    | '\n' :: rest => skipLines fuel rest
    | rest => rest

def skipNewlines (cs : List Char) : List Char := skipLines (cs.length + 1) cs

def bareWord (cs : List Char) : String := String.ofList (cs.takeWhile fun c => !isMeta c)

def afterBare (cs : List Char) : List Char := cs.dropWhile fun c => !isMeta c

def isEndWord (word : String) : Bool :=
  ["then", "else", "elif", "fi", "do", "done", "esac", "\x7d"].contains word

def keyword? (word : String) (cs : List Char) : Option (List Char) :=
  let cs := skipNewlines cs
  if bareWord cs = word then some (afterBare cs) else none

/-- The lines up to one that is the delimiter. -/
def documentLines (delimiter : List Char) : Nat → List Char → List Char × List Char
  | 0, cs => ([], cs)
  | _ + 1, [] => ([], [])
  | fuel + 1, cs =>
    let line := cs.takeWhile (· != '\n')
    let rest := (cs.dropWhile (· != '\n')).drop 1
    if line = delimiter then ([], rest)
    else
      let (more, rest) := documentLines delimiter fuel rest
      (line ++ '\n' :: more, rest)

def delimiter (word : Word) : List Char × Bool :=
  (word.flatMap fun piece =>
      match piece with
      | .text _ cs => cs
      | _ => [],
    word.any fun piece =>
      match piece with
      | .text quoted _ => quoted
      | _ => true)

def document? (descriptor : Nat) (cs : List Char) : Option (Redirection × List Char) :=
  match word? (skipBlanks cs) with
  | none => none
  | some (word, rest) =>
    let (name, literal) := delimiter word
    let line := rest.takeWhile (· != '\n')
    let below := (rest.dropWhile (· != '\n')).drop 1
    let (text, below) := documentLines name (below.length + 1) below
    let content : Word :=
      if literal then [.text true text] else textWord (String.ofList text)
    some (⟨descriptor, .lines content⟩, line ++ '\n' :: below)

def redirectionTo (make : Word → Target) (descriptor : Nat) (cs : List Char) :
    Option (Redirection × List Char) :=
  match word? (skipBlanks cs) with
  | some ([], _) => none
  | some (word, rest) => some (⟨descriptor, make word⟩, rest)
  | none => none

def digitsToNat (cs : List Char) : Nat :=
  cs.foldl (fun n c => 10 * n + (c.toNat - '0'.toNat)) 0

/-- A redirection, if one starts here; a number directly before it names the descriptor. -/
def redirection? (cs : List Char) : Option (Option (Redirection × List Char)) :=
  let digits := cs.takeWhile Char.isDigit
  let from_ (standard : Nat) : Nat := if digits.isEmpty then standard else digitsToNat digits
  match cs.dropWhile Char.isDigit with
  | '>' :: '>' :: rest => some (redirectionTo .appendFile (from_ 1) rest)
  | '>' :: '&' :: rest => some (redirectionTo .duplicate (from_ 1) rest)
  | '>' :: '|' :: rest => some (redirectionTo .writeFile (from_ 1) rest)
  | '>' :: rest => some (redirectionTo .writeFile (from_ 1) rest)
  | '<' :: '<' :: rest => some (document? (from_ 0) rest)
  | '<' :: '&' :: rest => some (redirectionTo .duplicate (from_ 0) rest)
  | '<' :: rest => some (redirectionTo .readFile (from_ 0) rest)
  | _ => none

def redirections : Nat → List Char → Option (List Redirection × List Char)
  | 0, _ => none
  | fuel + 1, cs =>
    match redirection? (skipBlanks cs) with
    | none => some ([], skipBlanks cs)
    | some none => none
    | some (some (r, rest)) =>
      (redirections fuel rest).map fun (rs, rest) => (r :: rs, rest)

def assignment? (cs : List Char) : Option (String × List Char) :=
  match cs with
  | c :: _ =>
    if isNameStart c then
      match cs.dropWhile isNameChar with
      | '=' :: rest => some (String.ofList (cs.takeWhile isNameChar), rest)
      | _ => none
    else none
  | [] => none

structure Parts where
  assignments : List (String × Word) := []
  words : List Word := []
  redirections : List Redirection := []

def simpleParts : Nat → Parts → List Char → Option (Parts × List Char)
  | 0, _, _ => none
  | fuel + 1, parts, cs =>
    let cs := skipBlanks cs
    match redirection? cs with
    | some none => none
    | some (some (r, rest)) =>
      simpleParts fuel { parts with redirections := parts.redirections ++ [r] } rest
    | none =>
      match parts.words.isEmpty, assignment? cs with
      | true, some (name, rest) =>
        match word? rest with
        | some (word, rest) =>
          simpleParts fuel { parts with assignments := parts.assignments ++ [(name, word)] } rest
        | none => none
      | _, _ =>
        match word? cs with
        | some ([], rest) => some (parts, rest)
        | some (word, rest) => simpleParts fuel { parts with words := parts.words ++ [word] } rest
        | none => none

def loopWords : Nat → List Char → Option (List Word × List Char)
  | 0, _ => none
  | fuel + 1, cs =>
    match word? (skipBlanks cs) with
    | some ([], rest) => some ([], rest)
    | some (word, rest) => (loopWords fuel rest).map fun (ws, rest) => (word :: ws, rest)
    | none => none

def armPatterns : Nat → List Char → Option (List Word × List Char)
  | 0, _ => none
  | fuel + 1, cs =>
    match word? (skipBlanks cs) with
    | none => none
    | some (word, rest) =>
      match skipBlanks rest with
      | '|' :: rest => (armPatterns fuel rest).map fun (ws, rest) => (word :: ws, rest)
      | ')' :: rest => some ([word], rest)
      | _ => none

def skipSeparator (cs : List Char) : List Char :=
  match skipBlanks cs with
  | ';' :: rest => rest
  | rest => rest

def startsFunction (cs : List Char) : Option (String × List Char) :=
  let name := cs.takeWhile isNameChar
  match name, skipBlanks (cs.dropWhile isNameChar) with
  | c :: _, '(' :: rest =>
    match skipBlanks rest with
    | ')' :: rest => if isNameStart c then some (String.ofList name, rest) else none
    | _ => none
  | _, _ => none

abbrev Read := Option (Command × List Char)

section

variable (lineOf : List Char → Nat)

mutual

def list? : Nat → List Char → Read
  | 0, _ => none
  | fuel + 1, cs =>
    let cs := skipNewlines cs
    match cs with
    | [] => some (.nothing, [])
    | ')' :: _ => some (.nothing, cs)
    | ';' :: ';' :: _ => some (.nothing, cs)
    | _ =>
      if isEndWord (bareWord cs) then some (.nothing, cs)
      else
        match andOr? fuel cs with
        | none => none
        | some (first, rest) =>
          match skipBlanks rest with
          | ';' :: ';' :: rest => some (first, ';' :: ';' :: rest)
          | ';' :: rest => follow? fuel first rest
          | '\n' :: rest => follow? fuel first rest
          | '&' :: rest => follow? fuel (.background first) rest
          | rest => some (first, rest)

def follow? : Nat → Command → List Char → Read
  | 0, _, _ => none
  | fuel + 1, first, cs =>
    match list? fuel cs with
    | some (.nothing, rest) => some (first, rest)
    | some (second, rest) => some (.sequence first second, rest)
    | none => none

def andOr? : Nat → List Char → Read
  | 0, _ => none
  | fuel + 1, cs =>
    match pipeline? fuel cs with
    | some (first, rest) => andOrRest? fuel first rest
    | none => none

def andOrRest? : Nat → Command → List Char → Read
  | 0, _, _ => none
  | fuel + 1, first, cs =>
    match skipBlanks cs with
    | '&' :: '&' :: rest =>
      match pipeline? fuel (skipNewlines rest) with
      | some (second, rest) => andOrRest? fuel (.both first second) rest
      | none => none
    | '|' :: '|' :: rest =>
      match pipeline? fuel (skipNewlines rest) with
      | some (second, rest) => andOrRest? fuel (.either first second) rest
      | none => none
    | rest => some (first, rest)

def pipeline? : Nat → List Char → Read
  | 0, _ => none
  | fuel + 1, cs =>
    let cs := skipBlanks cs
    if bareWord cs = "!" then
      (pipeline? fuel (afterBare cs)).map fun (c, rest) => (.negated c, rest)
    else
      match command? fuel cs with
      | none => none
      | some (first, rest) =>
        match skipBlanks rest with
        | '|' :: '|' :: rest => some (first, '|' :: '|' :: rest)
        | '|' :: rest =>
          (pipeline? fuel (skipNewlines rest)).map fun (second, rest) =>
            (.pipe first second, rest)
        | rest => some (first, rest)

def command? : Nat → List Char → Read
  | 0, _ => none
  | fuel + 1, cs =>
    let cs := skipBlanks cs
    match cs with
    | '(' :: rest =>
      match list? fuel rest with
      | some (body, rest) =>
        match skipNewlines rest with
        | ')' :: rest => redirected? fuel (lineOf cs) (.subshell body) rest
        | _ => none
      | none => none
    | _ =>
      match bareWord cs with
      | "\x7b" =>
        match list? fuel (afterBare cs) with
        | some (body, rest) =>
          (keyword? "\x7d" rest).bind fun rest => redirected? fuel (lineOf cs) body rest
        | none => none
      | "if" =>
        match branch? fuel (afterBare cs) with
        | some (c, rest) => redirected? fuel (lineOf cs) c rest
        | none => none
      | "while" => loop? fuel true (lineOf cs) (afterBare cs)
      | "until" => loop? fuel false (lineOf cs) (afterBare cs)
      | "for" => each? fuel (lineOf cs) (afterBare cs)
      | "case" => choose? fuel (lineOf cs) (afterBare cs)
      | word =>
        if isEndWord word then none
        else
          match startsFunction cs with
          | some (name, rest) =>
            (command? fuel (skipNewlines rest)).map fun (body, rest) => (.define name body, rest)
          | none =>
            match simpleParts (cs.length + 1) {} cs with
            | none => none
            | some (parts, rest) =>
              if parts.words.isEmpty && parts.assignments.isEmpty && parts.redirections.isEmpty
              then none
              else some (.simple (lineOf cs) parts.assignments parts.words parts.redirections, rest)

def redirected? : Nat → Nat → Command → List Char → Read
  | 0, _, _, _ => none
  | _ + 1, line, body, cs =>
    match redirections (cs.length + 1) cs with
    | none => none
    | some ([], rest) => some (body, rest)
    | some (rs, rest) => some (.redirected line body rs, rest)

def branch? : Nat → List Char → Read
  | 0, _ => none
  | fuel + 1, cs =>
    match list? fuel cs with
    | none => none
    | some (condition, rest) =>
      match (keyword? "then" rest).bind (list? fuel) with
      | none => none
      | some (yes, rest) =>
        let rest := skipNewlines rest
        match bareWord rest with
        | "fi" => some (.branch condition yes .nothing, afterBare rest)
        | "else" =>
          match list? fuel (afterBare rest) with
          | some (no, rest) =>
            (keyword? "fi" rest).map fun rest => (.branch condition yes no, rest)
          | none => none
        | "elif" =>
          (branch? fuel (afterBare rest)).map fun (no, rest) => (.branch condition yes no, rest)
        | _ => none

def body? : Nat → List Char → Read
  | 0, _ => none
  | fuel + 1, cs =>
    match (keyword? "do" cs).bind (list? fuel) with
    | none => none
    | some (body, rest) => (keyword? "done" rest).map fun rest => (body, rest)

def loop? : Nat → Bool → Nat → List Char → Read
  | 0, _, _, _ => none
  | fuel + 1, wanted, line, cs =>
    match list? fuel cs with
    | none => none
    | some (condition, rest) =>
      match body? fuel rest with
      | none => none
      | some (body, rest) => redirected? fuel line (.loop wanted condition body) rest

def each? : Nat → Nat → List Char → Read
  | 0, _, _ => none
  | fuel + 1, line, cs =>
    let cs := skipBlanks cs
    let name := bareWord cs
    let rest := skipNewlines (afterBare cs)
    let words : Option (Option (List Word) × List Char) :=
      if bareWord rest = "in" then
        (loopWords (rest.length + 1) (afterBare rest)).map fun (ws, rest) => (some ws, rest)
      else some (none, rest)
    match words with
    | none => none
    | some (words, rest) =>
      match body? fuel (skipSeparator rest) with
      | none => none
      | some (body, rest) => redirected? fuel line (.each name words body) rest

def choose? : Nat → Nat → List Char → Read
  | 0, _, _ => none
  | fuel + 1, line, cs =>
    match word? (skipBlanks cs) with
    | none => none
    | some (word, rest) =>
      match (keyword? "in" rest).bind (arms? fuel) with
      | none => none
      | some (arms, rest) => redirected? fuel line (.choose word arms) rest

def arms? : Nat → List Char → Option (List (List Word × Command) × List Char)
  | 0, _ => none
  | fuel + 1, cs =>
    let cs := skipNewlines cs
    if bareWord cs = "esac" then some ([], afterBare cs)
    else
      let cs :=
        match cs with
        | '(' :: rest => rest
        | _ => cs
      match armPatterns (cs.length + 1) cs with
      | none => none
      | some (patterns, rest) =>
        match list? fuel rest with
        | none => none
        | some (body, rest) =>
          match skipNewlines rest with
          | ';' :: ';' :: rest =>
            (arms? fuel rest).map fun (arms, rest) => ((patterns, body) :: arms, rest)
          | rest => (keyword? "esac" rest).map fun rest => ([(patterns, body)], rest)

end

end

def lineIn (script : List Char) (rest : List Char) : Nat :=
  1 + script.count '\n' - rest.count '\n'

/-- Every reader that does not shorten the text hands over to one that does within a few calls. -/
def read? (script : String) : Option Command :=
  let cs := script.toList
  match list? (lineIn cs) (20 * cs.length + 20) cs with
  | some (c, rest) => if (skipNewlines rest).isEmpty then some c else none
  | none => none

end HanaInsights.Shell
