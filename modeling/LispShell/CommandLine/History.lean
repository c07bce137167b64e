/-
The history of inputs: the last thousand, oldest first, without direct
repetitions, and one on each line of a file.
-/
import LispShell.CommandLine.Input

namespace LispShell

/-- Earlier inputs, oldest first. -/
abbrev History := List String

namespace History

/-- How many inputs are kept. -/
def limit : Nat := 1000

/-- The newest inputs that are kept. -/
def trim (h : History) : History :=
  h.drop (h.length - limit)

/-- Adds an input, unless it is the last one again. -/
def add (h : History) (input : String) : History :=
  if h.getLast? == some input then h else trim (h ++ [input])

/-- The history in a file's text, up to a line that is too long or has
stray bytes. -/
def ofText (text : String) : History :=
  trim (((Input.linesOf text).takeWhile fun line => line.whole && Text.isSpelling line.text).map
    (·.text))

/-- The text of a history's file. -/
def toText (h : History) : String :=
  String.join (h.map (· ++ "\n"))

end History

end LispShell
