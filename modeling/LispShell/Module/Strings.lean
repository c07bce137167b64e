/-
The module `strings`: procedures on text.
-/
import LispShell.Standard.Arithmetic
import LispShell.Text.Blank
import LispShell.Text.Case

namespace LispShell.Strings

/-- The text that an argument is. -/
def textArg (procedure : String) (position : Nat) : Value → Except Fault String
  | .text s => .ok s
  | v => .error (.argument procedure position "str" v.repr)

/-- The plain integer that an argument is. -/
def intArg (procedure : String) (position : Nat) : Value → Except Fault Int
  | .int n => .ok n.toInt
  | v => .error (.argument procedure position "int" v.repr)

/-- A procedure of one text. -/
def onText (procedure : String) (f : String → Value) (args : List Value) : Result := do
  let a ← oneArg procedure args
  let s ← textArg procedure 1 a
  return f s

/-- A procedure of two texts. -/
def onTexts (procedure : String) (f : String → String → Value) (args : List Value) : Result := do
  let (a, b) ← twoArgs procedure args
  let s ← textArg procedure 1 a
  let t ← textArg procedure 2 b
  return f s t

/-- The byte offset of a piece as a value; -1 if it does not occur. -/
def offsetValue (s piece : String) : Value :=
  match Text.offset? s piece with
  | some n => Value.ofInt n
  | none => Value.ofInt (-1)

/-- Puts the items of a sequence together, as they are shown. -/
def join (args : List Value) : Result := do
  let (a, b) ← twoArgs "join" args
  match a with
  | .sequence _ items =>
    let sep ← textArg "join" 2 b
    return .text (Text.join sep (items.map Value.format))
  | _ => .error (.argument "join" 1 "a list" a.repr)

def replace : List Value → Result
  | [a, b, c] => do
    let s ← textArg "replace" 1 a
    let old ← textArg "replace" 2 b
    let new ← textArg "replace" 3 c
    return .text (Text.replace s old new)
  | args => .error (.arity "replace" (.exactly 3) args.length)

def copies (args : List Value) : Result := do
  let (a, b) ← twoArgs "repeat" args
  let s ← textArg "repeat" 1 a
  let n ← intArg "repeat" 2 b
  if n < 0 then .error .negativeCount else return .text (Text.copies s n.toNat)

/-- The procedures of the module, by name. -/
def procedures : List (String × (List Value → Result)) :=
  [("upper", onText "upper" fun s => .text (Text.upper s)),
    ("lower", onText "lower" fun s => .text (Text.lower s)),
    ("trim", onText "trim" fun s => .text (Text.trim s)),
    ("fields", onText "fields" fun s => Value.texts (Text.words s)),
    ("split", onTexts "split" fun s sep => Value.texts (Text.split s sep)),
    ("contains", onTexts "contains" fun s piece => .bool (Text.contains s piece)),
    ("hasprefix", onTexts "hasprefix" fun s piece => .bool (Text.startsWith s piece)),
    ("hassuffix", onTexts "hassuffix" fun s piece => .bool (Text.endsWith s piece)),
    ("index", onTexts "index" offsetValue),
    ("join", join),
    ("replace", replace),
    ("repeat", copies)]

/-- The members of the module. -/
def members : List (String × Value) :=
  procedures.map fun p => (p.1, .proc (.host ⟨"strings", p.1, false⟩))

end LispShell.Strings
