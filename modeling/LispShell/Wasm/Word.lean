/-
Machine words and the values they stand for.

A module of machine code takes and gives words of 64 bits, each with a
type. A whole number goes into `i32` if it can be read as one, with or
without a sign; into `i64` if it is narrow; a whole number or a float goes
into `f32` and `f64`. References and vectors have no value in the language.
-/
import LispShell.Power
import LispShell.Standard.Arithmetic

namespace LispShell.Wasm

open scoped Power

/-- The types of words. -/
inductive ValType where
  | i32
  | i64
  | f32
  | f64
  /-- References to things outside. -/
  | externref
  /-- Vectors and references to functions, which have no name here. -/
  | other

def ValType.name : ValType → String
  | .i32 => "i32"
  | .i64 => "i64"
  | .f32 => "f32"
  | .f64 => "f64"
  | .externref => "externref"
  | .other => "unknown"

/-- The word of an integer: its low bits. -/
def wordOfInt (bits : Nat) (n : Int) : UInt64 :=
  UInt64.ofNat (n % 2 ^ bits).toNat

/-- The float that a value is. -/
def float? : Value → Option Float
  | .int n => some (Binary64.ofInt n.toInt)
  | .float x => some x
  | _ => none

/-- The word of a value, as far as the type can hold the value. -/
def word? : ValType → Value → Option UInt64
  | .i32, .int n => some (wordOfInt 32 n.toInt)
  | .i64, .int n => some (wordOfInt 64 n.toInt)
  | .f32, v => (float? v).map fun x => x.toFloat32.toBits.toUInt64
  | .f64, v => (float? v).map Float.toBits
  | _, _ => none

/-- Whether an integer can be read as 32 bits, with or without a sign. -/
def fitsWord32 (n : Int) : Bool :=
  -2 ^ (31 : Nat) ≤ n && n ≤ 2 ^ (32 : Nat) - 1

/-- The word that an argument is passed as. -/
def encode (procedure : String) (position : Nat) (t : ValType) (v : Value) :
    Except Fault UInt64 :=
  let outOfRange := match t, v with
    | .i32, .int n => !fitsWord32 n.toInt
    | _, _ => false
  if outOfRange then .error (.argumentRange procedure position t.name)
  else match word? t v with
    | some w => .ok w
    | none => .error (.argument procedure position t.name v.repr)

/-- The integer that the low bits of a word spell, with a sign. -/
def signedWord (bits : Nat) (w : UInt64) : Int :=
  Int.bmod (w.toNat % 2 ^ bits : Nat) (2 ^ bits)

/-- The value that a word stands for. -/
def decode (t : ValType) (w : UInt64) : Except Fault Value :=
  match t with
  | .i32 => .ok (Value.ofInt (signedWord 32 w))
  | .i64 => .ok (Value.ofInt (signedWord 64 w))
  | .f32 => .ok (.float (Float32.ofBits w.toUInt32).toFloat)
  | .f64 => .ok (.float (Float.ofBits w))
  | .externref | .other => .error (.machineType t.name)

end LispShell.Wasm
