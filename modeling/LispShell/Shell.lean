/-
The shell: what one line of input means.

A line whose first word is a command is that command with the rest of the
line, `?` and `help` ask about commands, another word that starts with an
underscore is an unknown command, and any other line is a program to run.
`complete` offers what a line could go on with.
-/
import LispShell.Program
import LispShell.Text.Blank

namespace LispShell.Shell

/-- The commands. -/
inductive Command where
  | exec
  | lex
  | load
  | parse

namespace Command

/-- All commands, in the order of their names. -/
def all : List Command :=
  [.exec, .lex, .load, .parse]

def name : Command → String
  | .exec => "_EXEC"
  | .lex => "_LEX"
  | .load => "_LOAD"
  | .parse => "_PARSE"

/-- What is said when asked about a command. -/
def help : Command → String
  | .exec =>
    "Executes some lisp. This is the default, so simply\n\n    pl> (+ 1 2)\n\nwill execute that line of code."
  | .lex => "Just lex a string, resulting in a list of tokens."
  | .load => "Load and execute a script from a file."
  | .parse => "Lex and parse an input string, printing each expression read."

/-- The command of a name. -/
def ofName? (s : String) : Option Command :=
  all.find? fun c => c.name == s

end Command

/-- The tokens of a text, each quoted, on one line. -/
def lexed (source : String) : Except Fault String :=
  (Token.lex source).map fun tokens =>
    "[" ++ Text.join ", " (tokens.map Text.quote) ++ "]\n"

/-- The expressions of a text, one on each line. -/
def parsed (source : String) : Except Fault String :=
  (Reader.readAll source).map fun forms =>
    String.join (forms.map fun f => f.render ++ "\n")

/-- A text, or the message of a fault in its place. -/
def orMessage : Except Fault String → String
  | .ok text => text
  | .error f => (Failure.fault f).message ++ "\n"

/-- What is said when asked for help on a topic, or on none. -/
def helpText (topic : String) : String :=
  if topic == "" then
    "Documented commands (type help <topic>):\n"
      ++ Text.join "  " (Command.all.map Command.name) ++ "\n"
  else match Command.ofName? topic with
    | some c => c.help ++ "\n"
    | none => "*** No help on " ++ topic ++ "\n"

/-- What a line asks for. -/
inductive Request where
  | nothing
  | help (topic : String)
  | command (c : Command) (arg : String)
  | unknown (line : String)
  | program (source : String)

/-- Reads a line. -/
def request (line : String) : Request :=
  let (word, arg) := Text.cut (Text.trim line) ' '
  if word == "" then .nothing
  else if word == "?" || word == "help" then .help (Text.trim arg)
  else match Command.ofName? word with
    | some c => .command c arg
    | none => if Text.startsWith word "_" then .unknown line else .program line

section Handling

variable {σ : Type} (i : Interpreter σ) (read : String → Except Failure String)

/-- Writes text. -/
def write (text : String) : Eval σ Unit :=
  Eval.record (.wrote text)

/-- Runs a program for what it writes. -/
def execute (source : String) : Eval σ Unit := do
  let _ ← i.exec source

/-- Runs a command. -/
def runCommand (arg : String) : Command → Eval σ Unit
  | .exec => execute i arg
  | .load =>
    match read (Text.trim arg) with
    | .error e => write ("_LOAD FAIL: " ++ e.message ++ "\n")
    | .ok source => execute i source
  | .lex => write (orMessage (lexed arg))
  | .parse => write (orMessage (parsed arg))

/-- Does what a line asks for. Files are read with `read`. -/
def handle (line : String) : Eval σ Unit :=
  match request line with
  | .nothing => return ()
  | .help topic => write (helpText topic)
  | .command c arg => runCommand i read arg c
  | .unknown line => write ("*** Unknown syntax: " ++ line ++ "\n")
  | .program source => execute i source

end Handling

-- ============================================================== completion

/-- Whether a word starts after the character. -/
def startsWord (c : Char) : Bool :=
  c == ' ' || c == '(' || c == ')'

/-- A line split before its last word. -/
def splitLast (line : String) : String × String :=
  let rev := line.toList.reverse
  (String.ofList (rev.dropWhile (!startsWord ·)).reverse,
    String.ofList (rev.takeWhile (!startsWord ·)).reverse)

/-- The lines that a line could become: its last word completed to a
command, if it is the only word, or to one of the symbols. -/
def complete (symbols : List String) (line : String) : List String :=
  let (front, word) := splitLast line
  if word == "" then []
  else
    let commands := if front == "" then Command.all.map Command.name else []
    commands.filter (Text.startsWith · word)
      ++ (symbols.filter (Text.startsWith · word)).map (front ++ ·)

end LispShell.Shell
