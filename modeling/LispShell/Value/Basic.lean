/-
Values: everything evaluation can produce.

# Integers

An integer value that fits 64 bits is `int`, any other is `wide`.
`Value.ofInt` chooses; every operation that makes an integer goes through
it. A `literal` is a wide integer that was quoted and not yet evaluated.

A wide integer has an identity, because it can be set in place. The number
it carries here is the one it was made with; what it holds now is read in
the `Cells` of the machine.

# Procedures

A procedure is a value by name: a standard one, one that the host
supplies, or a method or function of host data. The meaning of a name is
given by the host the program runs in, so values stay plain data.

# Host data

A `Datum` is a value of the program that embeds the language. Scalars of
it become values of the language when they cross the border
(`Datum.received`); the rest stays behind as an opaque `object`, of which
only members can be taken.
-/
import LispShell.Expr
import LispShell.Standard.Basic

namespace LispShell

/-- The integer types of host data. -/
inductive IntType where
  | int | int8 | int16 | int32 | int64
  | uint | uint8 | uint16 | uint32 | uint64
  deriving DecidableEq

/-- A procedure that the host supplies, by the collection it is in and its
name there. -/
structure HostProc where
  space : String
  name : String
  /-- Whether it is handed its caller, to evaluate code there. -/
  withCaller : Bool
  deriving DecidableEq

mutual

/-- What evaluation can produce. -/
inductive Value where
  | nil
  | bool (b : Bool)
  | int (n : Int64)
  /-- An integer that did not fit 64 bits when it was made. -/
  | wide (mark : Mark) (n : Int)
  | float (x : Float)
  | text (s : String)
  | symbol (name : String)
  /-- A wide integer literal that was not evaluated. -/
  | literal (mark : Mark) (n : Int)
  /-- A list that was not evaluated. -/
  | list (mark : Mark) (items : List Code)
  | sequence (mark : Mark) (items : List Value)
  | proc (p : Proc)
  /-- A module with a fixed set of members. -/
  | library (mark : Mark) (name : String) (members : List (String × Value))
  /-- A module of machine code, by its name. -/
  | machine (name : String)
  | object (d : Datum)

/-- A procedure, by name. -/
inductive Proc where
  | standard (p : Standard)
  | host (p : HostProc)
  /-- A function of a module of machine code. -/
  | machine (module name : String)
  /-- A method of a value. -/
  | method (receiver : Value) (name : String)
  /-- A function of the host, found under `name`. -/
  | function (name key : String)

/-- A value of the embedding program. -/
inductive Datum where
  | absent
  | integer (type : IntType) (n : Int)
  | real (single : Bool) (x : Float)
  | text (s : String)
  | flag (b : Bool)
  | texts (items : List String)
  /-- A row of bytes, which can be written to in place. -/
  | bytes (mark : Mark) (row : List UInt8)
  | array (type : String) (items : List Datum)
  | record (type : String) (fields : List Field)
  /-- A reference to a record; `id` tells references apart. -/
  | reference (id : Nat) (target : Datum)
  /-- A table; only one keyed by texts has members. -/
  | table (id : Nat) (type : String) (byText : Bool) (entries : List (String × Datum))
  /-- A function, `none` where a reference to one is empty. -/
  | function (type : String) (key : Option String)
  /-- Anything else, by its type and the text it shows. -/
  | named (type text : String)
  /-- A value of the language that the host keeps. -/
  | value (v : Value)

/-- A field of a record: whether it can be seen from outside, and whether
the fields of its own record count as fields of this one. -/
inductive Field where
  | field (name : String) (visible embedded : Bool) (datum : Datum)

end

instance : Inhabited Value := ⟨.nil⟩

namespace Value

/-- Whether an integer fits 64 bits. -/
def isNarrow (n : Int) : Bool :=
  Int64.minValue.toInt ≤ n && n ≤ Int64.maxValue.toInt

theorem isNarrow_toInt (n : Int64) : isNarrow n.toInt = true := by
  have hle := Int64.le_toInt n
  have hlt := Int64.toInt_lt n
  simp only [isNarrow, Bool.and_eq_true, decide_eq_true_eq, Int64.toInt_minValue,
    Int64.toInt_maxValue]
  omega

/-- An integer value: narrow if it fits, else a new wide one. -/
def ofInt (n : Int) : Value :=
  if isNarrow n then .int (Int64.ofInt n) else .wide .blank n

/-- A new sequence, which has no identity yet. -/
def row (items : List Value) : Value :=
  .sequence .blank items

/-- Whether a value has no identity yet, where its kind has one. -/
def isNew : Value → Bool
  | .wide .blank _ | .sequence .blank _ | .library .blank _ _ | .object (.bytes .blank _) => true
  | _ => false

/-- Gives a new value an identity. -/
def identify (mark : Mark) : Value → Value
  | .wide .blank n => .wide mark n
  | .sequence .blank items => .sequence mark items
  | .library .blank name members => .library mark name members
  | .object (.bytes .blank row) => .object (.bytes mark row)
  | v => v

/-- A new sequence of texts. -/
def texts (items : List String) : Value :=
  row (items.map .text)

/-- An expression as a value, not evaluated. -/
def ofCode : Code → Value
  | .int n => .int n
  | .wide mark n => .literal mark n
  | .float x => .float x
  | .text s => .text s
  | .symbol name => .symbol name
  | .list mark items => .list mark items

/-- The expression that a value is, if it is one. -/
def toCode? : Value → Option Code
  | .int n => some (.int n)
  | .literal mark n => some (.wide mark n)
  | .float x => some (.float x)
  | .text s => some (.text s)
  | .symbol name => some (.symbol name)
  | .list mark items => some (.list mark items)
  | _ => none

/-- Whether the value counts as true: all but nothing, `false`, zero and
what is empty. -/
def truthy : Value → Bool
  | .nil => false
  | .bool b => b
  | .int n => n != 0
  | .wide _ n => n != 0
  | .literal _ n => n != 0
  | .float x => x != 0
  | .text s => !s.isEmpty
  | .sequence _ items => !items.isEmpty
  | .list _ items => !items.isEmpty
  | .symbol _ | .proc _ | .library .. | .machine _ | .object _ => true

end Value

/-- Whether the procedure is handed its caller. -/
def Proc.withCaller : Proc → Bool
  | .standard .cond | .standard .dir => true
  | .standard _ => false
  | .host p => p.withCaller
  | .machine .. => true
  | .method .. | .function .. => false

end LispShell
