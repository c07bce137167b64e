/-
Flags: the arguments of a command that start with a dash.

A flag is `-name` or `--name`, and its value is the argument after it or
follows `=`. Flags end at `--`, which is passed over, or at the first
argument that is none; a lone `-` is none.
-/
import LispShell.Text.Search

namespace LispShell.CommandLine

/-- What is wrong with flags. -/
inductive FlagProblem where
  /-- Nothing: help is wanted. -/
  | help
  | malformed (arg : String)
  | undefined (name : String)
  | noValue (name : String)

/-- The wording of a problem. -/
def FlagProblem.message : FlagProblem → String
  | .help => "flag: help requested"
  | .malformed arg => "bad flag syntax: " ++ arg
  | .undefined name => "flag provided but not defined: -" ++ name
  | .noValue name => "flag needs an argument: -" ++ name

/-- A flag that a command knows: its name and what is said about it. -/
structure Flag where
  name : String
  help : String

/-- The values of flags, last one first, and the arguments after them. -/
structure Flags where
  values : List (String × String)
  rest : List String

/-- The value of a flag; empty if it is not given. -/
def Flags.value (f : Flags) (name : String) : String :=
  (f.values.lookup name).getD ""

/-- What an argument is when flags are read. -/
inductive Argument where
  | plain
  /-- Ends the flags. -/
  | ending
  | malformed
  | flag (name : String) (value : Option String)

/-- Splits a flag at `=`, which cannot be its first character. -/
def splitValue : List Char → String × Option String
  | [] => ("", none)
  | c :: cs =>
    let name := String.ofList (c :: cs.takeWhile (· != '='))
    match cs.dropWhile (· != '=') with
    | [] => (name, none)
    | _ :: value => (name, some (String.ofList value))

/-- A flag after its dashes. -/
def Argument.ofName : List Char → Argument
  | [] => .malformed
  | c :: cs =>
    if c == '-' || c == '=' then .malformed
    else
      let (name, value) := splitValue (c :: cs)
      .flag name value

/-- What an argument is. -/
def Argument.ofText (s : String) : Argument :=
  match s.toList with
  | ['-', '-'] => .ending
  | '-' :: '-' :: cs => .ofName cs
  | '-' :: c :: cs => .ofName (c :: cs)
  | _ => .plain

/-- Reads flags from the front of arguments. -/
def Flags.parse (known : List Flag) (values : List (String × String)) :
    List String → Except FlagProblem Flags
  | [] => .ok ⟨values, []⟩
  | arg :: rest =>
    match Argument.ofText arg with
    | .plain => .ok ⟨values, arg :: rest⟩
    | .ending => .ok ⟨values, rest⟩
    | .malformed => .error (.malformed arg)
    | .flag name value? =>
      if !known.any (fun f => f.name == name) then
        .error (if name == "help" || name == "h" then .help else .undefined name)
      else match value?, rest with
        | some value, rest => Flags.parse known ((name, value) :: values) rest
        | none, value :: rest => Flags.parse known ((name, value) :: values) rest
        | none, [] => .error (.noValue name)

/-- What a command says about its flags. -/
def usage (command : String) (known : List Flag) : String :=
  "Usage of " ++ command ++ ":\n"
    ++ String.join (known.map fun f => "  -" ++ f.name ++ " string\n    \t" ++ f.help ++ "\n")

/-- What is shown when flags are wrong, or when help is wanted. -/
def FlagProblem.report (p : FlagProblem) (command : String) (known : List Flag) : String :=
  match p with
  | .help => usage command known
  | p => p.message ++ "\n" ++ usage command known

end LispShell.CommandLine
