set_option autoImplicit false

namespace HanaInsights.Shell

/-- What becomes of a parameter's value before it is used. -/
inductive Change where
  | plain
  | length
  | default (emptyToo : Bool) (source : String)
  | alternative (emptyToo : Bool) (source : String)
  | trim (front longest : Bool) (source : String)
  deriving DecidableEq, Repr

inductive Piece where
  | text (quoted : Bool) (chars : List Char)
  | parameter (quoted : Bool) (name : String) (change : Change)
  | output (quoted : Bool) (source : String)
  | number (quoted : Bool) (source : String)
  deriving DecidableEq, Repr

abbrev Word := List Piece

inductive Target where
  | readFile (path : Word)
  | writeFile (path : Word)
  | appendFile (path : Word)
  | duplicate (descriptor : Word)
  | lines (text : Word)
  deriving DecidableEq, Repr

structure Redirection where
  descriptor : Nat
  target : Target
  deriving DecidableEq, Repr

inductive Command where
  | nothing
  | simple (line : Nat) (assignments : List (String × Word)) (words : List Word)
      (redirections : List Redirection)
  | sequence (first second : Command)
  | both (first second : Command)
  | either (first second : Command)
  | negated (command : Command)
  | pipe (first second : Command)
  | background (command : Command)
  | branch (condition yes no : Command)
  | loop (wanted : Bool) (condition body : Command)
  | each (name : String) (words : Option (List Word)) (body : Command)
  | choose (word : Word) (arms : List (List Word × Command))
  | subshell (body : Command)
  | redirected (line : Nat) (body : Command) (redirections : List Redirection)
  | define (name : String) (body : Command)

end HanaInsights.Shell
