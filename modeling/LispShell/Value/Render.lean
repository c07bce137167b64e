/-
Values as text.

`repr` shows a value so that texts are quoted; `format` shows a text as it
is. Host data is shown in the manner of the host: a record as its fields
between braces, a table as `map[key:value ...]` in the order of the keys,
an array between brackets, a reference to a record with `&` in front.
-/
import LispShell.Power
import LispShell.Text.Quoted
import LispShell.Value.Basic

namespace LispShell

open scoped Power

namespace IntType

/-- The name of an integer type. -/
def name : IntType → String
  | .int => "int"
  | .int8 => "int8"
  | .int16 => "int16"
  | .int32 => "int32"
  | .int64 => "int64"
  | .uint => "uint"
  | .uint8 => "uint8"
  | .uint16 => "uint16"
  | .uint32 => "uint32"
  | .uint64 => "uint64"

/-- The width of an integer type in bits. -/
def bits : IntType → Nat
  | .int | .int64 | .uint | .uint64 => 64
  | .int8 | .uint8 => 8
  | .int16 | .uint16 => 16
  | .int32 | .uint32 => 32

/-- Whether an integer type has negative values. -/
def isSigned : IntType → Bool
  | .int | .int8 | .int16 | .int32 | .int64 => true
  | .uint | .uint8 | .uint16 | .uint32 | .uint64 => false

/-- The integer of the type that agrees with `n` in its low bits. -/
def wrap (t : IntType) (n : Int) : Int :=
  if t.isSigned then Int.bmod n (2 ^ t.bits) else n % 2 ^ t.bits

end IntType

/-- Puts the entries of a table into the order of their keys. -/
def sortByKey {α : Type} (entries : List (String × α)) : List (String × α) :=
  entries.mergeSort fun a b => decide (a.1 ≤ b.1)

mutual

/-- A value with texts in quotes. -/
def Value.repr : Value → String
  | .nil => "nil"
  | .bool b => if b then "true" else "false"
  | .int n => Decimal.renderInt n.toInt
  | .wide _ n => Decimal.renderInt n
  | .float x => Decimal.renderFloat x
  | .text s => Text.quote s
  | .symbol name => name
  | .literal _ n => Decimal.renderInt n
  | .list _ items => "(" ++ Text.join " " (Expr.renderAll items) ++ ")"
  | .sequence _ items => "(" ++ Text.join " " (Value.reprAll items) ++ ")"
  | .proc _ => "<procedure>"
  | .library _ name _ => "<module '" ++ name ++ "'>"
  | .machine name => "<wasm module '" ++ name ++ "'>"
  | .object d => d.show

/-- Values with texts in quotes. -/
def Value.reprAll : List Value → List String
  | [] => []
  | v :: rest => v.repr :: Value.reprAll rest

/-- Host data as the host shows it. -/
def Datum.show : Datum → String
  | .absent => "<nil>"
  | .integer _ n => Decimal.renderInt n
  | .real single x => if single then Decimal.bare.singleFloat x else Decimal.bare.float x
  | .text s => s
  | .flag b => if b then "true" else "false"
  | .texts items => "[" ++ Text.join " " items ++ "]"
  | .bytes _ row => "[" ++ Text.join " " (row.map fun b => Nat.repr b.toNat) ++ "]"
  | .array _ items => "[" ++ Text.join " " (Datum.showAll items) ++ "]"
  | .record _ fields => "\x7b" ++ Text.join " " (Datum.showFields fields) ++ "\x7d"
  | .reference _ target => "&" ++ target.show
  | .table _ _ _ entries =>
    "map[" ++ Text.join " " ((sortByKey (Datum.showEntries entries)).map
      fun e => e.1 ++ ":" ++ e.2) ++ "]"
  | .function _ none => "<nil>"
  | .function type (some _) => type
  | .named _ text => text
  | .value v => v.repr

/-- Host data, item by item. -/
def Datum.showAll : List Datum → List String
  | [] => []
  | d :: rest => d.show :: Datum.showAll rest

/-- Fields of a record, one by one. -/
def Datum.showFields : List Field → List String
  | [] => []
  | .field _ _ _ d :: rest => d.show :: Datum.showFields rest

/-- Entries of a table, one by one. -/
def Datum.showEntries : List (String × Datum) → List (String × String)
  | [] => []
  | (key, d) :: rest => (key, d.show) :: Datum.showEntries rest

end

/-- A value for people: a text is shown as it is. -/
def Value.format : Value → String
  | .text s => s
  | v => v.repr

/-- The type of host data, as the host names it. -/
def Datum.typeName : Datum → String
  | .absent => "<nil>"
  | .integer type _ => type.name
  | .real single _ => if single then "float32" else "float64"
  | .text _ => "string"
  | .flag _ => "bool"
  | .texts _ => "[]string"
  | .bytes .. => "[]uint8"
  | .array type _ => type
  | .record type _ => type
  | .reference _ target => "*" ++ target.typeName
  | .table _ type _ _ => type
  | .function type _ => type
  | .named type _ => type
  | .value _ => "lisp.Value"

/-- The type of a value, as complaints name it. -/
def Value.typeName : Value → String
  | .nil => "nil"
  | .int _ | .wide .. | .literal .. => "int"
  | .float _ => "float"
  | .text _ => "str"
  | .symbol _ => "symbol"
  | .list .. => "list"
  | .sequence .. => "sequence"
  | .bool _ => "bool"
  | .proc _ => "procedure"
  | .library .. => "*lisp.Namespace"
  | .machine _ => "*wasm.Module"
  | .object d => d.typeName

end LispShell
