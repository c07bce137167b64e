/-
Comments, which run from `#` to the end of their line.

After a token, a comment on the rest of its line belongs to it, whatever
blanks stand before the `#`. Elsewhere comments come in runs: one that
only blanks and line breaks divide from the one before is passed over with
it. A comment is looked for at most `commentReach` characters ahead.
-/
import LispShell.Yaml.Cursor

namespace LispShell.Yaml

/-- How far ahead a comment is looked for. -/
def commentReach : Nat := 512

/-- Whether a character may stand between the comments of a run. -/
def dividesComments (c : Char) : Bool :=
  isSpace c || c == '\n' || c == '\r'

namespace Cursor

/-- Past a comment, up to the end of its line. -/
def skipComment (c : Cursor) : Cursor :=
  c.skipWhile (!isBreak ·)

/-- How many blanks stand there. -/
def blanks (c : Cursor) : Nat :=
  (c.rest.takeWhile isSpace).length

/-- Past a comment on the rest of the line, if only blanks stand before
it. -/
def skipLineComment (c : Cursor) : Cursor :=
  if c.blanks < commentReach && c.peek c.blanks == some '#' then (c.skip c.blanks).skipComment
  else c

/-- Past what divides the comments of a run. -/
def skipDivision : Nat → Cursor → Cursor
  | 0, c => c
  | fuel + 1, c =>
    let c := c.skipWhile isSpace
    match c.head with
    | some x => if dividesComments x then skipDivision fuel c.nextLine else c
    | none => c

/-- Past a run of comments, up to the end of the line of its last one. -/
def skipComments : Nat → Cursor → Cursor
  | 0, c => c
  | fuel + 1, c =>
    let c := c.skipComment
    let division := (c.rest.takeWhile dividesComments).length
    if division < commentReach && c.peek division == some '#' then
      skipComments fuel (skipDivision (division + 1) c)
    else c

end Cursor

end LispShell.Yaml
