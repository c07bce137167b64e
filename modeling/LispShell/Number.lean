/-
Numbers: exact integers of any size, and floats.

Two integers are added, multiplied and compared exactly. As soon as one
side is a float both are floats; an integer past the largest float then
counts as an infinity. One product is not what its name says: a wide
integer times a float to its right is their sum.

A result becomes a value again by way of its decimal text if it is an
integer, and directly if it is a float.
-/
import LispShell.Binary64
import LispShell.Fault
import LispShell.Value.Basic

namespace LispShell

/-- A number. -/
inductive Number where
  | int (n : Int)
  | float (x : Float)

namespace Number

/-- The nearest float. -/
def toFloat : Number → Float
  | .int n => Binary64.ofInt n
  | .float x => x

/-- The number as a value. An integer is written down and read back. -/
def toValue : Number → Except Fault Value
  | .int n =>
    let text := Decimal.renderInt n
    match Decimal.int? text.toList with
    | some z => .ok (Value.ofInt z)
    | none => .error (.notNumber text)
  | .float x => .ok (.float x)

/-- Combines two integers exactly, or two floats. -/
def combine (ints : Int → Int → Int) (floats : Float → Float → Float) : Number → Number → Number
  | .int m, .int n => .int (ints m n)
  | a, b => .float (floats a.toFloat b.toFloat)

def add : Number → Number → Number := combine (· + ·) (· + ·)

def sub : Number → Number → Number := combine (· - ·) (· - ·)

/-- The product, except that a wide integer and a float to its right are
added up. -/
def mul : Number → Number → Number
  | .int m, .float y =>
    let x := Binary64.ofInt m
    .float (if Value.isNarrow m then x * y else x + y)
  | a, b => combine (· * ·) (· * ·) a b

/-- How two numbers are ordered; not asked for what is not a number. -/
def compare : Number → Number → Ordering
  | .int m, .int n => if m < n then .lt else if m == n then .eq else .gt
  | a, b =>
    let x := a.toFloat
    let y := b.toFloat
    if x < y then .lt else if x == y then .eq else .gt

end Number

namespace Value

/-- The number that a value is; a truth value counts as one or zero. -/
def number? : Value → Option Number
  | .int n => some (.int n.toInt)
  | .wide _ n | .literal _ n => some (.int n)
  | .float x => some (.float x)
  | .bool b => some (.int (if b then 1 else 0))
  | _ => none

/-- The integer that a value is; a truth value counts as one or zero. -/
def integer? (v : Value) : Option Int :=
  match v.number? with
  | some (.int n) => some n
  | _ => none

/-- Whether the value is a float that is not a number. -/
def isNaN : Value → Bool
  | .float x => x.isNaN
  | _ => false

end Value

end LispShell
