/-
Binary floating point numbers as exact numbers.

A finite `Float` is `± m · 2^q` for natural `m` and integer `q`. This
file takes a float apart into that form and builds the float nearest to
a given ratio, ties going to the even significand, all in exact integer
arithmetic on the 64 bits. Rounding to whole numbers and the remainder
are computed on the exact form as well, so each of them is the true
result and not an approximation of it.

# The layout

One sign bit, eleven bits `b` of exponent, 52 bits `f` of fraction. With
`b = 0` the number is `f · 2^-1074`; with `0 < b < 2047` it is
`(2^52 + f) · 2^(b - 1075)`; `b = 2047` holds the infinities (`f = 0`)
and what is not a number.
-/
import LispShell.Power

namespace LispShell.Binary64

open scoped Power

/-- A float seen as an exact number. -/
inductive View where
  | nan
  | infinite (negative : Bool)
  | finite (negative : Bool) (m : Nat) (q : Int)

/-- The bits below the sign of an infinity: larger ones are no number. -/
def infinityBits : Nat := 0x7ff0000000000000

/-- The exact number that 64 bits stand for. -/
def viewBits (bits : Nat) : View :=
  let negative := 2 ^ (63 : Nat) ≤ bits
  let magnitude := bits % 2 ^ (63 : Nat)
  let b : Nat := magnitude / 2 ^ (52 : Nat)
  let f : Nat := magnitude % 2 ^ (52 : Nat)
  if b == 2047 then
    if f == 0 then .infinite negative else .nan
  else if b == 0 then .finite negative f (-1074)
  else .finite negative (2 ^ (52 : Nat) + f) ((b : Int) - 1075)

/-- The exact number that a float stands for. -/
def view (x : Float) : View :=
  viewBits x.toBits.toNat

/-- `n / d` to the nearest whole number, a half going to the even
neighbour. -/
def roundDiv (n d : Nat) : Nat :=
  let q := n / d
  let r := n % d
  if 2 * r < d then q
  else if d < 2 * r then q + 1
  else if q % 2 == 0 then q else q + 1

/-- The exponent `e` with `2^e ≤ n / d < 2^(e+1)`, for positive `n` and
`d`. -/
def floorLog (n d : Nat) : Int :=
  let e : Int := (n.log2 : Int) - (d.log2 : Int)
  let below := if 0 ≤ e then n < d * 2 ^ e.toNat else n * 2 ^ (-e).toNat < d
  if below then e - 1 else e

/-- The bits of the float nearest to the positive ratio `n / d`. Past the
largest float these are the bits of infinity. -/
def ratioBits (n d : Nat) : Nat :=
  if n == 0 then 0
  else
    let q : Int := max (floorLog n d - 52) (-1074)
    let m := if 0 ≤ q then roundDiv n (d * 2 ^ q.toNat) else roundDiv (n * 2 ^ (-q).toNat) d
    min ((q + 1074).toNat * 2 ^ (52 : Nat) + m) infinityBits

/-- A float from its sign and the bits below it. -/
def ofMagnitude (negative : Bool) (bits : Nat) : Float :=
  Float.ofBits (if negative then UInt64.ofNat (2 ^ (63 : Nat) + bits) else UInt64.ofNat bits)

/-- The float nearest to `± n / d`. -/
def ofRatio (negative : Bool) (n d : Nat) : Float :=
  ofMagnitude negative (ratioBits n d)

/-- The float nearest to `± m · 2^q`. -/
def ofDyadic (negative : Bool) (m : Nat) (q : Int) : Float :=
  if 0 ≤ q then ofRatio negative (m * 2 ^ q.toNat) 1
  else ofRatio negative m (2 ^ (-q).toNat)

/-- The float nearest to an integer. -/
def ofInt (n : Int) : Float :=
  ofRatio (n < 0) n.natAbs 1

/-- Positive infinity. -/
def infinity : Float := ofMagnitude false infinityBits

/-- Negative infinity. -/
def negativeInfinity : Float := ofMagnitude true infinityBits

/-- What is not a number. -/
def nan : Float := ofMagnitude false 0x7ff8000000000001

/-- Whether the sign bit is set. -/
def signBit (x : Float) : Bool :=
  2 ^ (63 : Nat) ≤ x.toBits.toNat

/-- The magnitude of `x` with the sign of `y`. -/
def copySign (x y : Float) : Float :=
  ofMagnitude (signBit y) (x.toBits.toNat % 2 ^ (63 : Nat))

/-- Ways to round to a whole number. -/
inductive Rounding where
  | down
  | up
  | towardZero

/-- `± m · 2^q` rounded to a whole number. -/
def roundDyadic (r : Rounding) (negative : Bool) (m : Nat) (q : Int) : Int :=
  let whole := if 0 ≤ q then m * 2 ^ q.toNat else m / 2 ^ (-q).toNat
  let exact := 0 ≤ q || m % 2 ^ (-q).toNat == 0
  let away := match r with
    | .down => negative && !exact
    | .up => !negative && !exact
    | .towardZero => false
  let magnitude : Int := if away then whole + 1 else whole
  if negative then -magnitude else magnitude

/-- A finite float rounded to a whole number. -/
def toInt? (r : Rounding) (x : Float) : Option Int :=
  match view x with
  | .finite negative m q => some (roundDyadic r negative m q)
  | _ => none

/-- The remainder of `x` after taking away `y` a whole number of times
toward zero. It has the sign of `x`, is smaller than `y` and is exact.
Of an infinite `x`, or by zero, there is none. -/
def remainder (x y : Float) : Float :=
  match view x, view y with
  | .nan, _ | _, .nan | .infinite _, _ => nan
  | _, .infinite _ => x
  | .finite negative m q, .finite _ n p =>
    if n == 0 then nan
    else if m == 0 then x
    else
      let low := min q p
      ofDyadic negative ((m * 2 ^ (q - low).toNat) % (n * 2 ^ (p - low).toNat)) low

/-- The length of the hypotenuse over two sides, scaled by the longer
side so that the squares stay in range. -/
def hypotenuse (x y : Float) : Float :=
  match view x, view y with
  | .infinite _, _ | _, .infinite _ => infinity
  | .nan, _ | _, .nan => nan
  | _, _ =>
    let a := x.abs
    let b := y.abs
    let longer := if a < b then b else a
    let shorter := if a < b then a else b
    if longer == 0 then 0
    else
      let ratio := shorter / longer
      longer * (1 + ratio * ratio).sqrt

end LispShell.Binary64
