/-
Reading numbers.

An integer is an optional sign and decimal digits, nothing else. One that
has to fit 64 bits is read digit by digit and given up with the digit that
goes past them, whatever follows. A float is one of

- `inf`, `infinity` with an optional sign, or `nan`, in any letter case;
- an optional sign, decimal digits with at most one point among them, and
  optionally `e`, a sign and more digits;
- an optional sign, `0x`, hexadecimal digits with at most one point among
  them, `p`, an optional sign and decimal digits: the power of two.

A `_` may stand between two digits, and after `0x`. The float read is the
one nearest to the written number; past the largest it is an infinity.
-/
import LispShell.Binary64
import LispShell.Power

namespace LispShell.Decimal

open scoped Power

/-- The value of a decimal digit. -/
def digit? (c : Char) : Option Nat :=
  if '0' ≤ c && c ≤ '9' then some (c.toNat - '0'.toNat) else none

/-- The value of a hexadecimal digit. -/
def hexDigit? (c : Char) : Option Nat :=
  if 'a' ≤ c && c ≤ 'f' then some (c.toNat - 'a'.toNat + 10)
  else if 'A' ≤ c && c ≤ 'F' then some (c.toNat - 'A'.toNat + 10)
  else digit? c

/-- The number that decimal digits spell, after those that spell `n`. -/
def natFrom (n : Nat) : List Char → Option Nat
  | [] => some n
  | c :: cs => match digit? c with
    | some d => natFrom (10 * n + d) cs
    | none => none

/-- The number that a non-empty row of decimal digits spells. -/
def nat? : List Char → Option Nat
  | [] => none
  | cs => natFrom 0 cs

/-- Splits off an optional sign: whether it is a minus, and the rest. -/
def signed : List Char → Bool × List Char
  | '-' :: cs => (true, cs)
  | '+' :: cs => (false, cs)
  | cs => (false, cs)

/-- The integer that the characters spell. -/
def int? (cs : List Char) : Option Int :=
  let (negative, rest) := signed cs
  (nat? rest).map fun n => if negative then -(n : Int) else n

/-- Why characters do not spell an integer of 64 bits. -/
inductive Misread where
  /-- They have something else where a digit should be. -/
  | malformed
  /-- Their digits go past 64 bits. -/
  | outOfRange
  deriving DecidableEq

/-- The number below `2^64` that decimal digits spell, after those that
spell `n`. The digit that goes past the bound ends the reading: what comes
after it is not looked at. -/
def wordFrom (n : Nat) : List Char → Except Misread Nat
  | [] => .ok n
  | c :: cs => match digit? c with
    | some d =>
      if 10 * n + d < 2 ^ (64 : Nat) then wordFrom (10 * n + d) cs else .error .outOfRange
    | none => .error .malformed

/-- The number below `2^64` that a non-empty row of decimal digits
spells. -/
def word : List Char → Except Misread Nat
  | [] => .error .malformed
  | cs => wordFrom 0 cs

/-- The integer of 64 bits that the characters spell. -/
def narrowInt (cs : List Char) : Except Misread Int64 := do
  let (negative, rest) := signed cs
  let n ← word rest
  let z : Int := if negative then -(n : Int) else n
  if Int64.minValue.toInt ≤ z && z ≤ Int64.maxValue.toInt then return Int64.ofInt z
  else .error .outOfRange

/-- An ASCII letter in lower case. -/
def lowerLetter (c : Char) : Char :=
  if 'A' ≤ c && c ≤ 'Z' then Char.ofNat (c.toNat + 32) else c

/-- The infinities and what is not a number. -/
def special? (cs : List Char) : Option Float :=
  let (negative, rest) := signed cs
  let word := String.ofList (rest.map lowerLetter)
  if word == "inf" || word == "infinity" then
    some (if negative then Binary64.negativeInfinity else Binary64.infinity)
  else if cs.map lowerLetter == ['n', 'a', 'n'] then some Binary64.nan
  else none

/-- What a `_` may stand next to. -/
inductive Neighbour where
  | start
  | digit
  | underscore
  | other

/-- Whether every `_` stands after a digit and before one. -/
def separatedFrom (isDigit : Char → Bool) (before : Neighbour) : List Char → Bool
  | [] => match before with
    | .underscore => false
    | _ => true
  | c :: cs =>
    if isDigit c then separatedFrom isDigit .digit cs
    else if c == '_' then
      match before with
      | .digit => separatedFrom isDigit .underscore cs
      | _ => false
    else match before with
      | .underscore => false
      | _ => separatedFrom isDigit .other cs

/-- Whether every `_` of an unsigned numeral separates digits. A base mark
`0x`, `0b` or `0o` counts as a digit. -/
def separated (cs : List Char) : Bool :=
  match cs with
  | '0' :: mark :: rest =>
    match lowerLetter mark with
    | 'x' => separatedFrom (fun c => (hexDigit? c).isSome) .digit rest
    | 'b' | 'o' => separatedFrom (fun c => (digit? c).isSome) .digit rest
    | _ => separatedFrom (fun c => (digit? c).isSome) .start cs
  | _ => separatedFrom (fun c => (digit? c).isSome) .start cs

/-- The digits of a numeral as they are read: the number they spell, how
many there were, and how many of them stand after the point. -/
structure Significand where
  value : Nat := 0
  count : Nat := 0
  point : Bool := false
  places : Nat := 0

/-- Reads digits and at most one point, passing over `_`; answers what was
read and the rest. -/
def significand (base : Nat) (digitOf : Char → Option Nat) (s : Significand) :
    List Char → Significand × List Char
  | [] => (s, [])
  | c :: cs =>
    if c == '_' then significand base digitOf s cs
    else if c == '.' then
      if s.point then (s, c :: cs) else significand base digitOf { s with point := true } cs
    else match digitOf c with
      | some d =>
        significand base digitOf
          { value := s.value * base + d
            count := s.count + 1
            point := s.point
            places := if s.point then s.places + 1 else s.places } cs
      | none => (s, c :: cs)

/-- Reads the digits of an exponent up to the end: a digit comes first. -/
def exponent? (cs : List Char) : Option Int :=
  let (negative, rest) := signed cs
  match rest with
  | [] => none
  | c :: _ =>
    if (digit? c).isNone then none
    else (nat? (rest.filter (· != '_'))).map fun n => if negative then -(n : Int) else n

/-- The float nearest to `± n · 10^e`. A number too large or too small for
any float is settled by its magnitude alone. -/
def ofDecimal (negative : Bool) (n : Nat) (e : Int) : Float :=
  if n == 0 then Binary64.ofMagnitude negative 0
  else
    let magnitude := e + (Nat.toDigits 10 n).length
    if 400 < magnitude then Binary64.ofMagnitude negative Binary64.infinityBits
    else if magnitude < -400 then Binary64.ofMagnitude negative 0
    else if 0 ≤ e then Binary64.ofRatio negative (n * 10 ^ e.toNat) 1
    else Binary64.ofRatio negative n (10 ^ (-e).toNat)

/-- The float nearest to `± n · 2^e`, with the same shortcut. -/
def ofBinary (negative : Bool) (n : Nat) (e : Int) : Float :=
  if n == 0 then Binary64.ofMagnitude negative 0
  else
    let magnitude := e + n.log2
    if 1100 < magnitude then Binary64.ofMagnitude negative Binary64.infinityBits
    else if magnitude < -1200 then Binary64.ofMagnitude negative 0
    else Binary64.ofDyadic negative n e

/-- A hexadecimal float, from after its base mark. -/
def hexFloat? (negative : Bool) (cs : List Char) : Option Float :=
  let (s, rest) := significand 16 hexDigit? {} cs
  match rest with
  | mark :: tail =>
    if s.count == 0 || lowerLetter mark != 'p' then none
    else (exponent? tail).map fun e => ofBinary negative s.value (e - 4 * s.places)
  | [] => none

/-- A decimal float. -/
def decimalFloat? (negative : Bool) (cs : List Char) : Option Float :=
  let (s, rest) := significand 10 digit? {} cs
  if s.count == 0 then none
  else match rest with
    | [] => some (ofDecimal negative s.value (-(s.places : Int)))
    | mark :: tail =>
      if lowerLetter mark != 'e' then none
      else (exponent? tail).map fun e => ofDecimal negative s.value (e - s.places)

/-- The float that the characters spell. -/
def float? (cs : List Char) : Option Float :=
  match special? cs with
  | some x => some x
  | none =>
    let (negative, rest) := signed cs
    let number := match rest with
      | '0' :: x :: c :: tail =>
        if lowerLetter x == 'x' then hexFloat? negative (c :: tail)
        else decimalFloat? negative rest
      | _ => decimalFloat? negative rest
    if rest.contains '_' && !separated rest then none else number

end LispShell.Decimal
