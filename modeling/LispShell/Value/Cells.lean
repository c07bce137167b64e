/-
What was stored in place.

Wide integers and rows of bytes have an identity, and the host's methods
can store something else in them, which everyone who holds them then sees.
A value carries the contents it was made with; the `Cells` of a machine
say what was stored since, and `Value.read` shows a value with what it
holds now.

A value without an identity yet cannot be seen twice, so what is stored
under the blank mark is never read.
-/
import LispShell.Value.Basic

namespace LispShell

/-- What a wide integer or a row of bytes holds. -/
inductive Content where
  | whole (n : Int)
  | bytes (row : List UInt8)
  deriving DecidableEq

/-- The number that a wide integer holds. -/
def Content.whole? : Content → Option Int
  | .whole n => some n
  | .bytes _ => none

/-- The bytes that a row holds. -/
def Content.bytes? : Content → Option (List UInt8)
  | .bytes row => some row
  | .whole _ => none

/-- What was stored in place, by identity, last things first. -/
abbrev Cells := List (Mark × Content)

namespace Cells

/-- What was stored last in the thing with an identity, of those contents
that `pick` takes. -/
def last? {α : Type} (pick : Content → Option α) (cells : Cells) (mark : Mark) : Option α :=
  if mark = .blank then none
  else cells.findSome? fun entry => if entry.1 = mark then pick entry.2 else none

/-- What a wide integer holds that was made with `n`. -/
def whole (cells : Cells) (mark : Mark) (n : Int) : Int :=
  (cells.last? Content.whole? mark).getD n

/-- What a row of bytes holds that was made with `row`. -/
def bytes (cells : Cells) (mark : Mark) (row : List UInt8) : List UInt8 :=
  (cells.last? Content.bytes? mark).getD row

/-- A number past those of a session's identities under which something was
stored. -/
def after (cells : Cells) (session : Nat) : Nat :=
  cells.foldr (fun entry n =>
    match entry.1 with
    | .made owner serial => if owner = session then max (serial + 1) n else n
    | _ => n) 0

end Cells

namespace Expr

variable (cells : Cells)

mutual

/-- An expression with what its wide integers hold now. -/
def read : Code → Code
  | .wide mark n => .wide mark (cells.whole mark n)
  | .list mark items => .list mark (readAll items)
  | .int n => .int n
  | .float x => .float x
  | .text s => .text s
  | .symbol name => .symbol name

/-- Expressions with what their wide integers hold now. -/
def readAll : List Code → List Code
  | [] => []
  | e :: rest => e.read :: readAll rest

end

end Expr

section

variable (cells : Cells)

mutual

/-- A value with what is held now by all that it is made of. -/
def Value.read : Value → Value
  | .wide mark n => .wide mark (cells.whole mark n)
  | .literal mark n => .literal mark (cells.whole mark n)
  | .list mark items => .list mark (Expr.readAll cells items)
  | .sequence mark items => .sequence mark (Value.readAll items)
  | .proc p => .proc p.read
  | .library mark name members => .library mark name (Value.readMembers members)
  | .object d => .object d.read
  | .nil => .nil
  | .bool b => .bool b
  | .int n => .int n
  | .float x => .float x
  | .text s => .text s
  | .symbol name => .symbol name
  | .machine name => .machine name

/-- Values with what they hold now. -/
def Value.readAll : List Value → List Value
  | [] => []
  | v :: rest => v.read :: Value.readAll rest

/-- The members of a library with what they hold now. -/
def Value.readMembers : List (String × Value) → List (String × Value)
  | [] => []
  | (name, v) :: rest => (name, v.read) :: Value.readMembers rest

/-- A procedure with what its receiver holds now. -/
def Proc.read : Proc → Proc
  | .method receiver name => .method receiver.read name
  | .standard p => .standard p
  | .host p => .host p
  | .machine module name => .machine module name
  | .function name key => .function name key

/-- Host data with what it holds now. -/
def Datum.read : Datum → Datum
  | .bytes mark row => .bytes mark (cells.bytes mark row)
  | .array type items => .array type (Datum.readAll items)
  | .record type fields => .record type (Datum.readFields fields)
  | .reference id target => .reference id target.read
  | .table id type byText entries => .table id type byText (Datum.readEntries entries)
  | .value v => .value v.read
  | .absent => .absent
  | .integer type n => .integer type n
  | .real single x => .real single x
  | .text s => .text s
  | .flag b => .flag b
  | .texts items => .texts items
  | .function type key => .function type key
  | .named type text => .named type text

/-- Host data, item by item, with what it holds now. -/
def Datum.readAll : List Datum → List Datum
  | [] => []
  | d :: rest => d.read :: Datum.readAll rest

/-- Fields of a record with what they hold now. -/
def Datum.readFields : List Field → List Field
  | [] => []
  | .field name visible embedded d :: rest =>
    .field name visible embedded d.read :: Datum.readFields rest

/-- Entries of a table with what they hold now. -/
def Datum.readEntries : List (String × Datum) → List (String × Datum)
  | [] => []
  | (key, d) :: rest => (key, d.read) :: Datum.readEntries rest

end

end

end LispShell
