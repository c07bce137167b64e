/-
The command line: what the arguments of the program ask for.

Without arguments, or with `repl`, the interactive shell starts; `run`
runs files, `lex` and `parse` show how a text is read. All of it is a
function of the arguments, the surroundings, the disk and what is typed
(`perform`).
-/
import LispShell.CommandLine.Flags
import LispShell.CommandLine.Repl

namespace LispShell.CommandLine

/-- How the program ends: its exit code, what it put out, and the disk. -/
structure Ending where
  code : Nat
  out : String
  err : String
  disk : Disk

/-- The name of the program. -/
def programName : String := "parens"

/-- What the program says about itself. -/
def help : String :=
  "Usage:\n"
    ++ "  parens [repl] [-config file]          Start the interactive shell.\n"
    ++ "  parens run [-config file] file...     Evaluate files, printing R: or NR~ per form.\n"
    ++ "  parens lex source                     Print the tokens of source.\n"
    ++ "  parens parse source                   Print the expressions read from source.\n"
    ++ "  parens version                        Print the version.\n"

/-- What arguments ask for. -/
inductive Request where
  | repl (args : List String)
  | run (args : List String)
  | lex (args : List String)
  | parse (args : List String)
  | version
  | help
  | unknown (word : String)

/-- Reads the arguments. -/
def Request.ofArgs : List String → Request
  | [] => .repl []
  | word :: args =>
    match word with
    | "repl" => .repl args
    | "run" => .run args
    | "lex" => .lex args
    | "parse" => .parse args
    | "version" => .version
    | "-h" | "--help" | "help" => .help
    | _ => .unknown word

/-- The flags of the commands that use settings. -/
def settingsFlags : List Flag :=
  [⟨"config", "config file (default $" ++ Settings.fileVariable ++ " or "
    ++ Settings.defaultFile ++ ")"⟩]

/-- Reads flags and loads the settings they ask for; what is said if that
fails. -/
def prepare (p : Platform) (command : String) (args : List String) :
    Except String (Settings × List String) :=
  match Flags.parse settingsFlags [] args with
  | .error problem =>
    .error (problem.report command settingsFlags ++ problem.message ++ "\n")
  | .ok flags =>
    let file := Settings.find p.surroundings p.disk (flags.value "config")
    match Settings.load p.surroundings p.disk file with
    | .error problem => .error (problem.message ++ "\n")
    | .ok x => .ok (x, flags.rest)

/-- Ends with what a console has put out. -/
def ofConsole (code : Nat) (c : Console) : Ending :=
  ⟨code, c.out, c.err, c.disk⟩

/-- Runs files one after the other, up to the first that cannot be
read. -/
def runFiles (level : Int) : List String → Console → Ending
  | [], c => ofConsole 0 c
  | file :: rest, c =>
    match c.read file with
    | .error e =>
      ofConsole 1 (c.warn (programName ++ ": cannot read " ++ file ++ ": " ++ e.message ++ "\n"))
    | .ok source => runFiles level rest (c.run level (c.interpreter.exec source)).2

/-- The command `run`. -/
def run (p : Platform) (args : List String) : Ending :=
  match prepare p "run" args with
  | .error text => ⟨2, "", text, p.disk⟩
  | .ok (x, files) =>
    if files.isEmpty then
      ⟨2, "", "usage: " ++ programName ++ " run [-config file] file...\n", p.disk⟩
    else match Console.start x p with
      | (.error e, c) => ofConsole 1 (c.warn (e.message ++ "\n"))
      | (.ok _, c) => runFiles x.logLevel files c

/-- Starts the interactive shell, or ends. -/
def startRepl (p : Platform) (args : List String) : Except Ending Repl :=
  match prepare p "repl" args with
  | .error text => .error ⟨2, "", text, p.disk⟩
  | .ok (x, _) =>
    match Console.start x p with
    | (.error e, c) => .error (ofConsole 1 (c.warn (e.message ++ "\n")))
    | (.ok _, c) => .ok (Repl.start x c)

/-- The command `repl`, with all that is typed. -/
def repl (p : Platform) (args : List String) (input : String) : Ending :=
  match startRepl p args with
  | .error ending => ending
  | .ok r =>
    let (code, c) := Repl.replay (Input.lines input) r
    ofConsole code c

/-- A command that shows how the rest of its arguments is read. -/
def showReading (p : Platform) (command : String) (args : List String)
    (reading : String → Except Fault String) : Ending :=
  match Flags.parse [] [] args with
  | .error problem => ⟨2, "", problem.report command [], p.disk⟩
  | .ok flags =>
    match reading (Text.join " " flags.rest) with
    | .error f => ⟨1, "", (Failure.fault f).message ++ "\n", p.disk⟩
    | .ok text => ⟨0, text, "", p.disk⟩

/-- Runs the program on its arguments and all that is typed. -/
def perform (p : Platform) (args : List String) (input : String) : Ending :=
  match Request.ofArgs args with
  | .repl args => repl p args input
  | .run args => run p args
  | .lex args => showReading p "lex" args Shell.lexed
  | .parse args => showReading p "parse" args Shell.parsed
  | .version => ⟨0, programName ++ " dev\n", "", p.disk⟩
  | .help => ⟨0, help, "", p.disk⟩
  | .unknown word =>
    ⟨2, help, programName ++ ": unknown command " ++ Text.quote word ++ "\n", p.disk⟩

end LispShell.CommandLine
