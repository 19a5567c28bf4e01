import HanaInsights.Command.Error
set_option autoImplicit false

namespace HanaInsights

structure SystemCommand where
  program : String
  args : List String := []
  secrets : List Nat := []
  timeout : Option Nat := none
  deriving DecidableEq, Repr

namespace SystemCommand

def withArgs (c : SystemCommand) (args : List String) : SystemCommand :=
  { c with args := c.args ++ args }

def withSecret (c : SystemCommand) (arg : String) : SystemCommand :=
  { c with args := c.args ++ [arg], secrets := c.secrets ++ [c.args.length] }

def withTimeout (c : SystemCommand) (milliseconds : Nat) : SystemCommand :=
  { c with timeout := some milliseconds }

def mask : String := "********"

def shownArgs (secrets : List Nat) : Nat → List String → List String
  | _, [] => []
  | i, arg :: rest => (if secrets.contains i then mask else arg) :: shownArgs secrets (i + 1) rest

def display (c : SystemCommand) : String :=
  if c.args.isEmpty then c.program
  else c.program ++ " " ++ " ".intercalate (shownArgs c.secrets 0 c.args)

end SystemCommand

/-- What a command that ran left behind; one that a signal ended has no exit code. -/
structure CommandOutput where
  stdout : String
  stderr : String
  exitCode : Option Int
  success : Bool
  deriving DecidableEq, Repr

end HanaInsights
