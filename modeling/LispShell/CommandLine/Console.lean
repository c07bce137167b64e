/-
A console: one session of the interpreter, and what it has put out.

A console is opened with settings. They say which modules can be imported
and which files are loaded first; log lines that are grave enough go to
the error output, all else to the output.
-/
import LispShell.Desk
import LispShell.Platform
import LispShell.Settings

namespace LispShell

/-- A session and what it has put out. -/
structure Console where
  desk : Desk Platform
  out : String
  err : String

namespace Console

/-- How deep an evaluation may go. -/
def depth : Nat := 1000000

/-- Writes to the output. -/
def print (c : Console) (text : String) : Console :=
  { c with out := c.out ++ text }

/-- Writes to the error output. -/
def warn (c : Console) (text : String) : Console :=
  { c with err := c.err ++ text }

/-- The interpreter of a console. -/
def interpreter (c : Console) : Interpreter Platform :=
  c.desk.interpreter Platform.host depth none 0

/-- Reads a file, from the working directory. -/
def read (c : Console) (path : String) : Except Failure String :=
  c.desk.host.read path

/-- The disk as it is now. -/
def disk (c : Console) : Disk :=
  c.desk.host.disk

/-- Writes a file, if that is possible. -/
def write (c : Console) (path content : String) : Console :=
  let host := c.desk.host
  let disk := host.disk.write host.surroundings.directory path content
  { c with desk := { c.desk with host := { host with disk } } }

/-- Runs a computation; what happens goes to the outputs. -/
def run {α : Type} (c : Console) (level : Int) (x : Eval Platform α) :
    Except Failure α × Console :=
  match c.desk.run 0 x with
  | none => (.error (.other "evaluation goes too deep"), c)
  | some r =>
    (r.answer,
      ⟨r.desk, c.out ++ Event.outputText r.events, c.err ++ Log.text level r.events⟩)

/-- The resolvers that settings ask for. -/
def resolvers (x : Settings) : List (Resolver Platform) :=
  (if x.native then [Platform.nativeResolver] else [])
  ++ (if x.wasmPaths.isEmpty then [] else [Platform.machineResolver x.wasmPaths])

/-- A console before anything is loaded. -/
def fresh (x : Settings) (p : Platform) : Console :=
  ⟨(Desk.empty p).addSession rootMembers ⟨resolvers x, []⟩, "", ""⟩

/-- The log line about a file that is loaded first. -/
def preloading (file : String) : LogEntry :=
  ⟨debugLevel, "preloading", [("file", file)]⟩

/-- Loads files up to the first that fails. -/
def preload (level : Int) : List String → Console → Except Failure Unit × Console
  | [], c => (.ok (), c)
  | file :: rest, c =>
    let (answer, c) := c.run level do
      Eval.record (.logged (preloading file))
      c.interpreter.loadFile file (c.read file)
    match answer with
    | .error e => (.error e, c)
    | .ok _ => preload level rest c

/-- Opens a console with settings. -/
def start (x : Settings) (p : Platform) : Except Failure Unit × Console :=
  preload x.logLevel x.preload (fresh x p)

end Console

end LispShell
