/-
The module `os`: what a program can learn about where it runs.
-/
import LispShell.Module.Strings

namespace LispShell

/-- Where a program runs: the environment's variables, the working
directory, the arguments of the command line and the name of the
machine. -/
structure Surroundings where
  environment : List (String × String)
  directory : String
  arguments : List String
  hostName : String

namespace Surroundings

/-- A procedure without arguments. -/
def constant (procedure : String) (v : Value) (args : List Value) : Result := do
  checkArity procedure (.exactly 0) args
  return v

/-- The value of a variable; nothing if it is not set. -/
def variableValue (s : Surroundings) (name : String) : Value :=
  match s.environment.lookup name with
  | some v => .text v
  | none => .nil

/-- The procedures of the module, by name. -/
def procedures : List (String × (Surroundings → List Value → Result)) :=
  [("getenv", fun s => Strings.onText "getenv" (variableValue s)),
    ("getwd", fun s => constant "getwd" (.text s.directory)),
    ("hostname", fun s => constant "hostname" (.text s.hostName))]

/-- The members of the module. -/
def members (s : Surroundings) : List (String × Value) :=
  [("args", Value.texts s.arguments), ("pathsep", .text "/")]
  ++ procedures.map fun p => (p.1, .proc (.host ⟨"os", p.1, false⟩))

end Surroundings

end LispShell
