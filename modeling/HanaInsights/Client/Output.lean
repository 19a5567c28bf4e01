import HanaInsights.KnowledgeBase
set_option autoImplicit false

/-!
Rows from the output of the database client. Fields are separated by commas; a text is quoted, with
each of its quotes doubled, and may run over several lines; a bare question mark is NULL. The output
is read one character at a time, so what a character means depends on the state alone.
-/

namespace HanaInsights
namespace ClientOutput

inductive Fault where
  | unterminated (line : Nat)
  | unexpected (found : Char) (line : Nat)
  deriving DecidableEq, Repr

def Fault.message : Fault → String
  | .unterminated line => "Unterminated quoted field starting on line " ++ toString line
  | .unexpected found line =>
    "Unexpected character '" ++ String.singleton found ++ "' after quoted field on line " ++
      toString line

/-- Characters of an unfinished field are held last first. -/
inductive Mode where
  | record
  | field
  | bare (chars : List Char)
  | quoted (start : Nat) (chars : List Char)
  | quote (start : Nat) (chars : List Char)
  | closed (chars : List Char)
  deriving DecidableEq, Repr

structure State where
  line : Nat
  rows : List Row
  cells : Row
  mode : Mode
  deriving DecidableEq, Repr

namespace State

def start : State := ⟨1, [], [], .record⟩

def endField (s : State) (cell : Option String) : State :=
  { s with cells := cell :: s.cells, mode := .field }

def endRecord (s : State) (cell : Option String) : State :=
  ⟨s.line + 1, (cell :: s.cells).reverse :: s.rows, [], .record⟩

/-- Carriage returns before the end of a bare field belong to the line end. -/
def bareCell (chars : List Char) : Option String :=
  match chars.dropWhile (· == '\r') with
  | ['?'] => none
  | kept => some (String.ofList kept.reverse)

def quotedCell (chars : List Char) : Option String := some (String.ofList chars.reverse)

def beginField (s : State) (c : Char) : State :=
  if c = '"' then { s with mode := .quoted s.line [] }
  else if c = ',' then s.endField (bareCell [])
  else if c = '\n' then s.endRecord (bareCell [])
  else { s with mode := .bare [c] }

/-- After a closing quote only the end of the field may follow. -/
def afterQuote (s : State) (chars : List Char) (c : Char) : Except Fault State :=
  if c = ',' then .ok (s.endField (quotedCell chars))
  else if c = '\n' then .ok (s.endRecord (quotedCell chars))
  else .error (.unexpected c s.line)

def step (s : State) (c : Char) : Except Fault State :=
  match s.mode with
  | .record =>
    if c = '\n' then .ok { s with line := s.line + 1 }
    else if c = '\r' then .ok s
    else .ok (s.beginField c)
  | .field => .ok (s.beginField c)
  | .bare chars =>
    if c = ',' then .ok (s.endField (bareCell chars))
    else if c = '\n' then .ok (s.endRecord (bareCell chars))
    else .ok { s with mode := .bare (c :: chars) }
  | .quoted start chars =>
    if c = '"' then .ok { s with mode := .quote start chars }
    else .ok { s with
      line := if c = '\n' then s.line + 1 else s.line, mode := .quoted start (c :: chars) }
  | .quote start chars =>
    if c = '"' then .ok { s with mode := .quoted start (c :: chars) }
    else if c = '\r' then .ok { s with mode := .closed chars }
    else s.afterQuote chars c
  | .closed chars => s.afterQuote chars c

def close (s : State) (cell : Option String) : List Row :=
  ((cell :: s.cells).reverse :: s.rows).reverse

def finish (s : State) : Except Fault (List Row) :=
  match s.mode with
  | .record => .ok s.rows.reverse
  | .field => .ok (s.close (bareCell []))
  | .bare chars => .ok (s.close (bareCell chars))
  | .quoted start _ => .error (.unterminated start)
  | .quote _ chars => .ok (s.close (quotedCell chars))
  | .closed chars => .ok (s.close (quotedCell chars))

end State

def rowsOfChars (cs : List Char) : Except Fault (List Row) := do
  let s ← cs.foldlM State.step State.start
  s.finish

def rows (output : String) : Except Fault (List Row) := rowsOfChars output.toList

end ClientOutput
end HanaInsights
