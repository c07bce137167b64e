/-
How numbers are written.

A float is written with its shortest digits. Between `10^-4` and `10^6`
the point is put in place (`0.0001`, `100000.0`), outside that the first
digit is followed by a power of ten with a sign and at least two digits
(`1e+06`, `2.5e-07`). A whole number keeps `.0`, so that it does not read
back as an integer.
-/
import LispShell.Decimal.Shortest

namespace LispShell.Decimal

/-- The decisions of a number format. -/
structure Layout where
  /-- Exponents below this are written as a power of ten. -/
  least : Int
  /-- Exponents from this on are written as a power of ten. -/
  most : Int
  /-- How many digits the power of ten has at least. -/
  exponentWidth : Nat
  /-- What is put after a whole number without a power of ten. -/
  whole : String
  infinity : String
  negativeInfinity : String
  nan : String

/-- Digits with zeros in front, at least `width` of them. -/
def padded (width n : Nat) : String :=
  let s := Nat.repr n
  String.ofList (List.replicate (width - s.length) '0') ++ s

/-- The digits with the point after the first `place` of them. -/
def pointed (digits : List Char) (place : Int) (whole : String) : String :=
  if place ≤ 0 then
    "0." ++ String.ofList (List.replicate (-place).toNat '0' ++ digits)
  else
    let p := place.toNat
    let front := digits.take p ++ List.replicate (p - digits.length) '0'
    match digits.drop p with
    | [] => String.ofList front ++ whole
    | back => String.ofList front ++ "." ++ String.ofList back

/-- The digits with a power of ten. -/
def powered (digits : List Char) (exponent : Int) (width : Nat) : String :=
  let front := match digits with
    | [] => "0"
    | [d] => String.singleton d
    | d :: rest => String.singleton d ++ "." ++ String.ofList rest
  front ++ (if exponent < 0 then "e-" else "e+") ++ padded width exponent.natAbs

/-- A positive decimal written in a layout. -/
def Layout.decimal (l : Layout) (d : Scaled) : String :=
  let digits := Nat.toDigits 10 d.digits
  let exponent := d.exponent + digits.length - 1
  if exponent < l.least || l.most ≤ exponent then powered digits exponent l.exponentWidth
  else pointed digits (exponent + 1) l.whole

/-- A number written in a layout, a finite one with the given decimal. -/
def Layout.number (l : Layout) (decimalOf : Nat → Int → Scaled) : Binary64.View → String
  | .nan => l.nan
  | .infinite negative => if negative then l.negativeInfinity else l.infinity
  | .finite negative m q =>
    let sign := if negative then "-" else ""
    if m == 0 then sign ++ "0" ++ l.whole else sign ++ l.decimal (decimalOf m q)

/-- A float written in a layout. -/
def Layout.float (l : Layout) (x : Float) : String :=
  l.number (shortest double) (Binary64.view x)

/-- A float that came from one of 32 bits, written with the digits that
tell it apart from its neighbours there. -/
def Layout.singleFloat (l : Layout) (x : Float) : String :=
  l.number (fun m q => let (n, e) := single.fit m q; shortest single n e) (Binary64.view x)

/-- The layout of floats in the language. -/
def literal : Layout where
  least := -4
  most := 6
  exponentWidth := 2
  whole := ".0"
  infinity := "+Inf"
  negativeInfinity := "-Inf"
  nan := "NaN"

/-- The layout of floats inside host data: a whole number keeps no
mark. -/
def bare : Layout := { literal with whole := "" }

/-- A float as the language writes it. -/
def renderFloat (x : Float) : String :=
  literal.float x

/-- An integer in decimal. -/
def renderInt (n : Int) : String :=
  if n < 0 then "-" ++ Nat.repr n.natAbs else Nat.repr n.natAbs

end LispShell.Decimal
