/-
Names of files.

A path is cleaned by its text alone: repeated slashes and `.` go away and
`..` takes away the part before it. Nothing is asked of the disk, so a
cleaned path can lead elsewhere than the path itself did.
-/
import LispShell.Text.Search

namespace LispShell.Path

/-- The parts of a path between slashes. -/
def parts (p : String) : List String :=
  Text.split p "/"

/-- Whether a path starts at the root. -/
def isAbsolute (p : String) : Bool :=
  p.toList.head? == some '/'

/-- Adds one part to the parts before it, last first. -/
def cleanPart (absolute : Bool) (before : List String) (part : String) : List String :=
  if part == "" || part == "." then before
  else if part == ".." then
    match before with
    | [] => if absolute then [] else [part]
    | last :: rest => if last == ".." then part :: before else rest
  else part :: before

/-- The shortest path with the same meaning. -/
def clean (p : String) : String :=
  let absolute := isAbsolute p
  let kept := ((parts p).foldl (cleanPart absolute) []).reverse
  if absolute then "/" ++ Text.join "/" kept
  else if kept.isEmpty then "." else Text.join "/" kept

/-- A path inside a directory, cleaned. Empty pieces do not count. -/
def join (directory p : String) : String :=
  if directory == "" then (if p == "" then "" else clean p)
  else if p == "" then clean directory
  else clean (directory ++ "/" ++ p)

/-- A path from the root, taken from a working directory. -/
def absolute (directory p : String) : String :=
  if isAbsolute p then clean p else join directory p

/-- The directory that a cleaned path is in. -/
def parent (p : String) : String :=
  let front := (parts p).dropLast
  clean (if isAbsolute p then "/" ++ Text.join "/" front else Text.join "/" front)

end LispShell.Path
