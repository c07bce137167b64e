/-
The fewest decimal digits that read back as the same float.

The reals that round to a float `m · 2^q` form an interval around it; its
ends belong to it exactly if `m` is even, because ties round to even.
Among the decimals `d · 10^k` in that interval `shortest` takes one with
the fewest digits, and of those the one nearest to the float.

# The search

For one digit, two digits and so on up to seventeen, the two neighbours
of the float on the grid of decimals with that many digits are tested.
If any point of a grid lies in the interval then so does one of the
float's two neighbours, so the first grid with a hit has the fewest
digits. Seventeen digits always suffice. Everything is compared as
integers over one common denominator.
-/
import LispShell.Binary64
import LispShell.Power

namespace LispShell.Decimal

open scoped Power

/-- The positive decimal `digits · 10^exponent`. -/
structure Scaled where
  digits : Nat
  exponent : Int

/-- A format of floats: how many bits their significands have, and their
least exponent. -/
structure Precision where
  bits : Nat
  least : Int

/-- The format of 64 bits. -/
def double : Precision := ⟨53, -1074⟩

/-- The format of 32 bits. -/
def single : Precision := ⟨24, -149⟩

/-- Three ratios over one denominator: the lower end, the float itself
and the upper end, and whether the ends count. -/
structure Span where
  low : Nat
  value : Nat
  high : Nat
  denominator : Nat
  closed : Bool

/-- The reals that round to `m · 2^q`. Below a power of two the floats
stand twice as close, so there the lower end is nearer. -/
def Span.ofDyadic (p : Precision) (m : Nat) (q : Int) : Span :=
  let below := if m == 2 ^ (p.bits - 1) && p.least < q then 1 else 2
  let scale := if 0 ≤ q - 2 then 2 ^ (q - 2).toNat else 1
  let denominator := if 0 ≤ q - 2 then 1 else 2 ^ (2 - q).toNat
  { low := (4 * m - below) * scale
    value := 4 * m * scale
    high := (4 * m + 2) * scale
    denominator
    closed := m % 2 == 0 }

/-- The span in units of `10^k`. -/
def Span.scale (s : Span) (k : Int) : Span :=
  if 0 ≤ k then { s with denominator := s.denominator * 10 ^ k.toNat }
  else
    let t := 10 ^ (-k).toNat
    { s with low := s.low * t, value := s.value * t, high := s.high * t }

/-- Whether the whole number `d` lies in the span. -/
def Span.holds (s : Span) (d : Nat) : Bool :=
  let x := d * s.denominator
  if s.closed then s.low ≤ x && x ≤ s.high else s.low < x && x < s.high

/-- The whole number of the span that is nearest to its value, if there
is one; of two equally near the even one. -/
def Span.nearest? (s : Span) : Option Nat :=
  let d := s.value / s.denominator
  let toLower := s.value - d * s.denominator
  let toUpper := (d + 1) * s.denominator - s.value
  match s.holds d, s.holds (d + 1) with
  | true, true =>
    if toLower < toUpper || (toLower == toUpper && d % 2 == 0) then some d else some (d + 1)
  | true, false => some d
  | false, true => some (d + 1)
  | false, false => none

/-- Whether `n / d` is below `10^e`. -/
def belowPower (n d : Nat) (e : Int) : Bool :=
  if 0 ≤ e then n < d * 10 ^ e.toNat else n * 10 ^ (-e).toNat < d

/-- The exponent `e` with `10^e ≤ n / d < 10^(e+1)`, found from `guess`
by steps of one. -/
def decimalLog (n d : Nat) (steps : Nat) (guess : Int) : Int :=
  match steps with
  | 0 => guess
  | steps + 1 =>
    if belowPower n d guess then decimalLog n d steps (guess - 1)
    else if belowPower n d (guess + 1) then guess
    else decimalLog n d steps (guess + 1)

/-- The exponent of the first decimal digit of a span's value. -/
def Span.decimalExponent (s : Span) : Int :=
  let guess := Binary64.floorLog s.value s.denominator * 30103 / 100000
  decimalLog s.value s.denominator 8 guess

/-- Tries grids of `count`, `count + 1`, … digits, `tries` of them. -/
def Span.search (s : Span) (top : Int) (count : Nat) : Nat → Option Scaled
  | 0 => none
  | tries + 1 =>
    let k := top + 1 - count
    match (s.scale k).nearest? with
    | some d => some ⟨d, k⟩
    | none => s.search top (count + 1) tries

/-- Drops zeros at the end of the digits, at most `count` of them. -/
def Scaled.trim (d : Scaled) : Nat → Scaled
  | 0 => d
  | count + 1 =>
    if d.digits != 0 && d.digits % 10 == 0 then
      Scaled.trim ⟨d.digits / 10, d.exponent + 1⟩ count
    else d

/-- The shortest decimal that reads back as the positive float
`m · 2^q`. -/
def shortest (p : Precision) (m : Nat) (q : Int) : Scaled :=
  let s := Span.ofDyadic p m q
  match s.search s.decimalExponent 1 17 with
  | some d => d.trim 17
  | none => ⟨s.value / s.denominator, 0⟩

/-- The number `m · 2^q` with the exponent that it has in a format. -/
def Precision.fit (p : Precision) (m : Nat) (q : Int) : Nat × Int :=
  let e := max (q + m.log2 + 1 - p.bits) p.least
  if q ≤ e then (m / 2 ^ (e - q).toNat, e) else (m * 2 ^ (q - e).toNat, e)

end LispShell.Decimal
