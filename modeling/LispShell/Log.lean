/-
Log lines and how grave they are.

A level is a number. Four have names, eight, four and four apart; a level
between two of them is written as the lower name and an offset, such as
`DEBUG+2`, and read back the same way. A line is written as
`level=… msg=… key=value …`; a value with blanks, quotes, equal signs or
characters that cannot be shown is quoted.
-/
import LispShell.Decimal.Numeral
import LispShell.Machine
import LispShell.Text.Blank
import LispShell.Text.Case
import LispShell.Text.Quoted
import LispShell.Value.Render

namespace LispShell.Log

/-- The level of warnings. -/
def warn : Int := 4

/-- The named levels. -/
def named : List (String × Int) :=
  [("DEBUG", -4), ("INFO", 0), ("WARN", 4), ("ERROR", 8)]

/-- Reads a level: a name in any letter case, with or without an
offset. -/
def parse? (s : String) : Option Int :=
  let isSign (c : Char) : Bool := c == '+' || c == '-'
  let name := String.ofList (s.toList.takeWhile (!isSign ·))
  let tail := s.toList.dropWhile (!isSign ·)
  match named.lookup (Text.upper name) with
  | none => none
  | some level =>
    if tail.isEmpty then some level
    else match Decimal.int? tail with
      | some offset =>
        if Value.isNarrow offset then some (IntType.int64.wrap (level + offset)) else none
      | none => none

/-- A level as text. -/
def render (level : Int) : String :=
  let (name, base) :=
    if level < 0 then ("DEBUG", -4)
    else if level < 4 then ("INFO", 0)
    else if level < 8 then ("WARN", 4)
    else ("ERROR", 8)
  let offset : Int := level - base
  if offset == 0 then name
  else if offset < 0 then name ++ Decimal.renderInt offset
  else name ++ "+" ++ Decimal.renderInt offset

/-- Whether a letter makes a value need quotes. -/
def needsQuotes (l : Text.Letter) : Bool :=
  let c := l.shown
  if c.toNat < 0x80 then c.toNat < 0x20 || c == ' ' || c == '=' || c == '"'
  else c == Text.replacement || Text.isBlank c || !Text.isPrintable c

/-- A value as it stands in a log line. -/
def fieldText (s : String) : String :=
  if s.isEmpty || (Text.letters s).any needsQuotes then Text.quote s else s

/-- A log line. -/
def line (e : LogEntry) : String :=
  let fields := [("level", render e.level), ("msg", e.text)] ++ e.details
  Text.join " " (fields.map fun f => fieldText f.1 ++ "=" ++ fieldText f.2) ++ "\n"

/-- The lines that are at least as grave as a level. -/
def text (level : Int) : List Event → String
  | [] => ""
  | .logged e :: rest => (if level ≤ e.level then line e else "") ++ text level rest
  | _ :: rest => text level rest

end LispShell.Log
