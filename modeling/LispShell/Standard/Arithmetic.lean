/-
Standard procedures on numbers, texts and sequences.

Each takes its arguments evaluated and gives a value or a fault. The
number of arguments is checked first, then the arguments from left to
right.
-/
import LispShell.Fault
import LispShell.Number
import LispShell.Power
import LispShell.Value.Render
import LispShell.Value.Same

namespace LispShell

open scoped Power

/-- The result of a procedure that needs nothing but its arguments. -/
abbrev Result := Except Fault Value

/-- Fails unless the number of arguments is right. -/
def checkArity (procedure : String) (takes : Arity) (args : List Value) : Except Fault Unit :=
  if takes.admits args.length then .ok () else .error (.arity procedure takes args.length)

/-- The only argument. -/
def oneArg (procedure : String) : List Value → Except Fault Value
  | [a] => .ok a
  | args => .error (.arity procedure (.exactly 1) args.length)

/-- The two arguments. -/
def twoArgs (procedure : String) : List Value → Except Fault (Value × Value)
  | [a, b] => .ok (a, b)
  | args => .error (.arity procedure (.exactly 2) args.length)

/-- The number that an operand is. -/
def operand (procedure : String) (v : Value) : Except Fault Number :=
  match v.number? with
  | some n => .ok n
  | none => .error (.operand procedure v.typeName)

/-- The float that an argument is. -/
def realArg (procedure : String) (v : Value) : Except Fault Float :=
  match v.number? with
  | some n => .ok n.toFloat
  | none => .error (.notReal procedure v.typeName)

namespace Standard

/-- An operation on two numbers. -/
def arithmetic (procedure : String) (op : Number → Number → Number) (args : List Value) :
    Result := do
  let (a, b) ← twoArgs procedure args
  let x ← operand procedure a
  let y ← operand procedure b
  (op x y).toValue

/-- Addition, which also puts texts and sequences together. -/
def addition : List Value → Result
  | [.text x, .text y] => .ok (.text (x ++ y))
  | [.sequence _ x, .sequence _ y] => .ok (Value.row (x ++ y))
  | args => arithmetic "add" Number.add args

/-- Division of floats. -/
def division (args : List Value) : Result := do
  let (a, b) ← twoArgs "truediv" args
  let x ← realArg "truediv" a
  let y ← realArg "truediv" b
  if y == 0 then .error .divisionByZero else .ok (.float (x / y))

/-- The float remainder that has the sign of the divisor. -/
def floorRemainder (x y : Float) : Float :=
  let r := Binary64.remainder x y
  if r != 0 && decide (r < 0) != decide (y < 0) then r + y else r

/-- The integer remainder that has the sign of the divisor: the one of the
division toward zero, moved once by the divisor if its sign is the other. -/
def signedRemainder (m n : Int) : Int :=
  let r := Int.tmod m n
  if r != 0 && r.sign != n.sign then r + n else r

/-- The remainder, which has the sign of the divisor. -/
def modulo (args : List Value) : Result := do
  let (a, b) ← twoArgs "mod" args
  match a.integer?, b.integer? with
  | some m, some n =>
    if n == 0 then .error .integerModulo else .ok (Value.ofInt (signedRemainder m n))
  | _, _ =>
    let x ← realArg "mod" a
    let y ← realArg "mod" b
    if y == 0 then .error .floatModulo else .ok (.float (floorRemainder x y))

/-- A power of an integer. The powers of zero and one are taken by the
parity of the exponent alone. -/
def intPower (base : Int) (exponent : Nat) : Int :=
  let magnitude :=
    if base.natAbs ≤ 1 then (if exponent == 0 then 1 else base.natAbs)
    else base.natAbs ^ exponent
  if base < 0 && exponent % 2 == 1 then -(magnitude : Int) else magnitude

/-- Powers: exact for integers with an exponent that is not negative. -/
def power (args : List Value) : Result := do
  let (a, b) ← twoArgs "pow" args
  let floats : Result := do
    let x ← realArg "pow" a
    let y ← realArg "pow" b
    return .float (x.pow y)
  match a.integer?, b.integer? with
  | some m, some n => if 0 ≤ n then .ok (Value.ofInt (intPower m n.toNat)) else floats
  | _, _ => floats

/-- Whether two values are equal: numbers by their order, what is not a
number never, all else if it is the same. -/
def equals (a b : Value) : Bool :=
  if a.isNaN || b.isNaN then false
  else match a.number?, b.number? with
    | some x, some y => x.compare y == .eq
    | _, _ => a.same false b

def equality (args : List Value) : Result := do
  let (a, b) ← twoArgs "eq" args
  return .bool (equals a b)

end Standard

/-- Whether the test accepts an ordering. -/
def Order.accepts : Order → Ordering → Bool
  | .lt, o => o == .lt
  | .gt, o => o == .gt
  | .le, o => o != .gt
  | .ge, o => o != .lt

/-- How two texts are ordered: by their bytes. -/
def compareText (s t : String) : Ordering :=
  if s < t then .lt else if s == t then .eq else .gt

namespace Standard

/-- An order test on two texts or two numbers; what is not a number is in
no order. -/
def comparison (o : Order) (args : List Value) : Result := do
  let (a, b) ← twoArgs o.name args
  match a, b with
  | .text s, .text t => return .bool (o.accepts (compareText s t))
  | _, _ =>
    let x ← operand o.name a
    let y ← operand o.name b
    return .bool (!(a.isNaN || b.isNaN) && o.accepts (x.compare y))

def negation (args : List Value) : Result := do
  let a ← oneArg "not" args
  return .bool !a.truthy

/-- The number of items or of letters. -/
def length (args : List Value) : Result := do
  let a ← oneArg "len" args
  match a with
  | .sequence _ items => return Value.ofInt items.length
  | .list _ items => return Value.ofInt items.length
  | .text s => return Value.ofInt (Text.letters s).length
  | _ => .error (.noLength a.typeName)

end Standard

end LispShell
