/-
The interactive shell: it asks for lines, gathers them into inputs and
does what each asks for. The inputs go into a history, which is kept in a
file between runs.

A step of it is pure (`feed`), so it can be driven line by line from a
terminal or run over all lines of a text (`replay`).
-/
import LispShell.CommandLine.Console
import LispShell.CommandLine.History
import LispShell.Shell

namespace LispShell

/-- The state of the interactive shell. -/
structure Repl where
  settings : Settings
  console : Console
  history : History
  pending : Input.Pending

namespace Repl

/-- What is shown first. -/
def banner : String := "Welcome to parens, a Go Lisp-ish\n"

/-- The shell after its console was opened. -/
def start (x : Settings) (c : Console) : Repl where
  settings := x
  console := c.print banner
  history :=
    if x.history == "" then []
    else match c.read x.history with
      | .ok text => History.ofText text
      | .error _ => []
  pending := none

/-- What asks for the next line; nothing if it cannot be shown. -/
def prompt? (r : Repl) : Option String :=
  let prompt := Input.promptFor r.settings.prompt r.pending
  if Input.isPrompt prompt then some prompt else none

/-- Does what an input asks for. -/
def handle (r : Repl) (input : String) : Repl :=
  if Text.trim input == "" then r
  else
    let c := r.console
    let (_, console) := c.run r.settings.logLevel (Shell.handle c.interpreter c.read input)
    { r with console, history := r.history.add (Text.replace input "\n" " ") }

/-- Takes a line. -/
def feed (r : Repl) (line : String) : Repl :=
  match Input.feed r.pending line with
  | (pending, none) => { r with pending }
  | (pending, some input) => { r with pending }.handle input

/-- Keeps the history. -/
def close (r : Repl) : Console :=
  if r.settings.history == "" then r.console
  else r.console.write r.settings.history r.history.toText

/-- Ends because the prompt cannot be shown. -/
def refuse (r : Repl) : Nat × Console :=
  (1, r.close.warn "invalid prompt\n")

/-- Ends because there are no more lines. -/
def finish (r : Repl) : Nat × Console :=
  (0, { r with console := r.console.print "\n" }.close)

/-- Takes lines up to the end: the exit code, and the console as it is
then. -/
def replay : List String → Repl → Nat × Console
  | lines, r =>
    match r.prompt? with
    | none => r.refuse
    | some prompt =>
      let r := { r with console := r.console.print prompt }
      match lines with
      | [] => r.finish
      | line :: rest => replay rest (r.feed line)

end Repl

end LispShell
