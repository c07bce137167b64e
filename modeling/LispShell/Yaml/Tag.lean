/-
What a scalar stands for.

A plain scalar is a null, a truth value, a number, a date, or else a
text, by its spelling alone. A tag can say what it has to be; the
spelling then has to agree, but a text is always accepted as a text and an
integer that fits 64 bits with a sign as a float. Tags that are not known
here name texts.
-/
import LispShell.Power
import LispShell.Text.Search
import LispShell.Yaml.Timestamp

namespace LispShell.Yaml

open scoped Power

/-- What a scalar stands for. -/
inductive Meaning where
  | null
  | bool (b : Bool)
  | int
  /-- An integer that fits 64 bits only without a sign. -/
  | unsigned
  | float
  | time
  | text
  deriving DecidableEq

namespace Meaning

/-- The tag of a meaning. -/
def tag : Meaning → String
  | .null => "!!null"
  | .bool _ => "!!bool"
  | .int | .unsigned => "!!int"
  | .float => "!!float"
  | .time => "!!timestamp"
  | .text => "!!str"

/-- The scalars whose spelling is fixed. -/
def fixed : List (String × Meaning) :=
  ["true", "True", "TRUE"].map (·, .bool true)
  ++ ["false", "False", "FALSE"].map (·, .bool false)
  ++ ["", "~", "null", "Null", "NULL"].map (·, .null)
  ++ [".nan", ".NaN", ".NAN", ".inf", ".Inf", ".INF", "+.inf", "+.Inf", "+.INF",
    "-.inf", "-.Inf", "-.INF"].map (·, .float)

end Meaning

-- ================================================================ integers

/-- The number that digits spell in a base; zero if there are none. -/
def natIn? (base : Nat) (cs : List Char) : Option Nat :=
  cs.foldl (fun n c => match n, Decimal.hexDigit? c with
    | some n, some d => if d < base then some (base * n + d) else none
    | _, _ => none) (some 0)

/-- The base that a front part tells, and the digits after it. A zero in
front of other digits tells base eight. -/
def based : List Char → Nat × List Char
  | '0' :: x :: d :: rest =>
    let c := Decimal.lowerLetter x
    if c == 'b' then (2, d :: rest)
    else if c == 'o' then (8, d :: rest)
    else if c == 'x' then (16, d :: rest)
    else (8, x :: d :: rest)
  | '0' :: rest => (8, rest)
  | cs => (10, cs)

/-- Whether digits spell a number that fits 64 bits with a sign. -/
def fitsSigned (negative : Bool) (base : Nat) (digits : List Char) : Bool :=
  match natIn? base digits with
  | some n => if negative then n ≤ 2 ^ (63 : Nat) else n < 2 ^ (63 : Nat)
  | none => false

/-- Whether digits spell a number that fits 64 bits without a sign. -/
def fitsUnsigned (base : Nat) (digits : List Char) : Bool :=
  match natIn? base digits with
  | some n => n < 2 ^ (64 : Nat)
  | none => false

/-- The integer that the characters spell in the base they tell. -/
def integer? (cs : List Char) : Option Meaning :=
  let (negative, body) := Decimal.signed cs
  let (base, digits) := based body
  let (plainBase, plainDigits) := based cs
  if !body.isEmpty && fitsSigned negative base digits then some .int
  else if !cs.isEmpty && fitsUnsigned plainBase plainDigits then some .unsigned
  else none

/-- The integer that the characters spell after a front part such as `0b`
that tells its base, with a sign in front of either of them. -/
def integerAfter? (letter : Char) (base : Nat) (cs : List Char) : Option Meaning :=
  match cs with
  | '0' :: x :: rest =>
    let (negative, digits) := Decimal.signed rest
    if x != letter || digits.isEmpty then none
    else if fitsSigned negative base digits then some .int
    else if fitsUnsigned base rest then some .unsigned
    else none
  | '-' :: '0' :: x :: rest =>
    if x == letter && !rest.isEmpty && fitsSigned true base rest then some .int else none
  | _ => none

-- ================================================================== floats

/-- Whether the characters are decimal digits with at most one point, and
then perhaps an exponent. -/
def isDecimalFloat (cs : List Char) : Bool :=
  let body := (Decimal.signed cs).2
  let whole := body.takeWhile Char.isDigit
  let afterWhole := body.dropWhile Char.isDigit
  let (fraction, tail) := match afterWhole with
    | '.' :: rest => (rest.takeWhile Char.isDigit, rest.dropWhile Char.isDigit)
    | _ => ([], afterWhole)
  let exponent := match tail with
    | [] => true
    | c :: rest =>
      let digits := (Decimal.signed rest).2
      (c == 'e' || c == 'E') && !digits.isEmpty && digits.all Char.isDigit
  !(whole.isEmpty && fraction.isEmpty) && exponent

/-- Whether the characters spell a finite float. -/
def isFiniteFloat (cs : List Char) : Bool :=
  match Decimal.float? cs with
  | some x => x.isFinite
  | none => false

-- ============================================================== the meaning

/-- What a spelling with a digit or a sign in front stands for. -/
def Meaning.ofNumeral (dates : Bool) (cs : List Char) : Meaning :=
  let plain := cs.filter (· != '_')
  if dates && Timestamp.holds cs then .time
  else match integer? plain with
    | some m => m
    | none =>
      if isDecimalFloat plain && isFiniteFloat plain then .float
      else ((integerAfter? 'b' 2 plain).or (integerAfter? 'o' 8 plain)).getD .text

/-- What a spelling stands for; dates only where they are looked for. -/
def Meaning.ofSpelling (dates : Bool) (s : String) : Meaning :=
  match Meaning.fixed.lookup s, s.toList with
  | some m, _ => m
  | none, [] => .null
  | none, c :: rest =>
    if c == '.' then (if isFiniteFloat (c :: rest) then .float else .text)
    else if c.isDigit || c == '+' || c == '-' then .ofNumeral dates (c :: rest)
    else .text

/-- The tag of a plain scalar that has none. -/
def plainTag (s : String) : String :=
  if s == "<<" then "!!merge" else (Meaning.ofSpelling true s).tag

/-- The tags that a spelling has to agree with. -/
def checkedTags : List String :=
  ["!!bool", "!!int", "!!float", "!!null", "!!timestamp"]

/-- What a scalar with a tag stands for. -/
def resolve (tag s : String) : Except String Meaning :=
  if !checkedTags.contains tag then .ok .text
  else
    let m := Meaning.ofSpelling (tag == "!!timestamp") s
    if m.tag == tag then .ok m
    else if tag == "!!float" && m == .int then .ok .float
    else .error ("yaml: cannot decode " ++ m.tag ++ " \x60" ++ s ++ "\x60 as a " ++ tag)

end LispShell.Yaml
