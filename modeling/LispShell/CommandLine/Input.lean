/-
What is typed, line by line.

Lines are gathered into inputs: an input goes on while the text so far
ends inside a list or a string, unless it starts like a command. The
first line of an input is asked for with the prompt, each further one with
dots of the same width.
-/
import LispShell.Reader
import LispShell.Text.Blank
import LispShell.Text.Control

namespace LispShell.Input

-- =================================================================== lines

/-- The most bytes of one line; a longer one is read in pieces. -/
def lineLimit : Nat := 4096

/-- A line, and whether it is whole or the piece of a longer one. -/
structure Line where
  text : String
  whole : Bool

/-- A line that ends in a line feed: a carriage return before that does not
count. -/
def dropReturn (cs : List Char) : List Char :=
  if cs.getLast? == some '\r' then cs.dropLast else cs

/-- The first line of some bytes, and the bytes after it. A carriage return
at the end of a piece is left for the next one. -/
def firstLine (cs : List Char) : Line × List Char :=
  let window := cs.take lineLimit
  let line := window.takeWhile (· != '\n')
  if line.length < window.length then
    (⟨String.ofList (dropReturn line), true⟩, cs.drop (line.length + 1))
  else if window.length < lineLimit then (⟨String.ofList line, true⟩, [])
  else if line.getLast? == some '\r' then
    (⟨String.ofList line.dropLast, false⟩, cs.drop (lineLimit - 1))
  else (⟨String.ofList line, false⟩, cs.drop lineLimit)

/-- The first lines of some bytes, at most `count` of them. -/
def firstLines : Nat → List Char → List Line
  | 0, _ | _, [] => []
  | count + 1, cs =>
    let (line, rest) := firstLine cs
    line :: firstLines count rest

/-- The lines of a text. A last line that is empty does not count. -/
def linesOf (text : String) : List Line :=
  firstLines text.length text.toList

/-- The lines of a text, long ones in pieces. -/
def lines (text : String) : List String :=
  (linesOf text).map (·.text)

-- ================================================================== inputs

/-- The text of an unfinished input; nothing between inputs. -/
abbrev Pending := Option String

/-- An input with one more line. -/
def extend (pending : Pending) (line : String) : String :=
  match pending with
  | none => line
  | some text => text ++ "\n" ++ line

/-- Whether an input needs another line. -/
def needsMore (text : String) : Bool :=
  !Text.startsWith (Text.trim text) "_"
    && (match Reader.readAll text with
      | .error f => f.incomplete
      | .ok _ => false)

/-- Takes a line: the unfinished input after it, and the input it
finishes, if it does. -/
def feed (pending : Pending) (line : String) : Pending × Option String :=
  let text := extend pending line
  if needsMore text then (some text, none) else (none, some text)

/-- The inputs that lines make. An input that is unfinished at the end is
dropped. -/
def inputs (pending : Pending) : List String → List String
  | [] => []
  | line :: rest =>
    match feed pending line with
    | (pending, none) => inputs pending rest
    | (pending, some text) => text :: inputs pending rest

-- ================================================================= prompts

/-- What asks for a further line of an input: a dot for every byte of the
prompt up to the blanks at its end. -/
def continuation (prompt : String) : String :=
  Text.copies "." (Text.dropRight prompt ' ').length ++ " "

/-- What asks for the next line. -/
def promptFor (prompt : String) : Pending → String
  | none => prompt
  | some _ => continuation prompt

/-- Whether a prompt can be shown. -/
def isPrompt (s : String) : Bool :=
  !(Text.letters s).any fun l => Text.isControl l.shown

end LispShell.Input
