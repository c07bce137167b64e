/-
Calls of host methods.

# Crossing the border

`Datum.received` brings host data into the language: whole numbers up to
64 bits with a sign, floats, texts, truth values and rows of texts become
values of the language, and the rest stays an object. A function that is a
member becomes a procedure too (`Datum.toValue`).

`Parameter.convert` takes an argument the other way, to what a parameter
of a method wants. The missing value becomes the zero of the type. An
interface takes what implements it, where an integer, a float, a text or a
truth value counts as the host's own, which implements nothing. A text and
anything else never convert into each other. Number arguments convert as
machine numbers do: an integer is cut to the low bits of the narrower
type, a float is cut toward zero first.

A conversion can break down, as that of a row to an array with more places
than the row has. Nothing catches that, so the methods that programs call
have only parameters where it cannot happen (`Slot`).

# Results

A method gives back any number of results. An error that is the last of
them is not one of its values: it makes the call fail, or, if it is none,
is left out. A method can also store something in place, in wide integers
and rows of bytes that it was given; that stays done if it breaks down.
-/
import LispShell.Fault
import LispShell.Number
import LispShell.Power
import LispShell.Value.Cells
import LispShell.Value.Render

namespace LispShell

open scoped Power

/-- Host data as a value of the language. -/
def Datum.received : Datum → Value
  | .absent => .nil
  | .integer type n =>
    if type == .uint || type == .uint64 then .object (.integer type n) else .int (Int64.ofInt n)
  | .real _ x => .float x
  | .text s => .text s
  | .flag b => .bool b
  | .texts items => Value.texts items
  | .value v => v
  | d => .object d

/-- Host data that is a member, as a value of the language. A function is
called `name` in its complaints. -/
def Datum.toValue (name : String) : Datum → Value
  | .function _ (some key) => .proc (.function name key)
  | d => d.received

/-- What a value is to the host. -/
def Value.toDatum : Value → Datum
  | .int n => .integer .int64 n.toInt
  | .float x => .real false x
  | .text s => .text s
  | .bool b => .flag b
  | .object d => d
  | v => .value v

/-- Whether a value is a text to the host. -/
def Value.isText : Value → Bool
  | .text _ | .symbol _ | .object (.text _) => true
  | _ => false

-- ============================================================== conversions

/-- What becomes of an argument. -/
inductive Conversion where
  /-- The parameter gets it as a datum of its own type. -/
  | taken (d : Datum)
  /-- It does not have the type of the parameter. -/
  | refused
  /-- It has the right type, and the conversion breaks down all the same. -/
  | broken (what : String)

/-- A conversion that is possible or not, and does not break down. -/
def Conversion.ofOption : Option Datum → Conversion
  | some d => .taken d
  | none => .refused

/-- A type of the host's own: its name, whether its values are texts, what
it has where nothing is given, and what becomes of host data that is to
have it. -/
structure HostType where
  name : String
  isText : Bool
  zero : Datum
  convert : Datum → Conversion

/-- A parameter of a host method, by its type. -/
inductive Parameter where
  | integer (type : IntType)
  | real (single : Bool)
  | text
  | flag
  /-- Whatever implements an interface. -/
  | interface (name : String) (implementedBy : Datum → Bool)
  /-- Any other type. -/
  | other (type : HostType)

/-- A float cut to an integer of 64 bits with a sign. What does not fit
becomes the least such integer. -/
def cutSigned (x : Float) : Int :=
  match Binary64.toInt? .towardZero x with
  | some n => if Value.isNarrow n then n else -2 ^ (63 : Nat)
  | none => -2 ^ (63 : Nat)

/-- A float cut to an integer of 64 bits without a sign: from `2^63` on
the part above is cut, below that the bits of the signed cut are taken. -/
def cutUnsigned (x : Float) : Int :=
  let half : Float := 9223372036854775808.0
  if x < half then cutSigned x % 2 ^ (64 : Nat)
  else (cutSigned (x - half) + 2 ^ (63 : Nat)) % 2 ^ (64 : Nat)

/-- A float as an integer of a host type. -/
def IntType.ofFloat (t : IntType) (x : Float) : Int :=
  t.wrap (if t.isSigned then cutSigned x else cutUnsigned x)

/-- A float in the precision of a host type. -/
def inPrecision (single : Bool) (x : Float) : Float :=
  if single then x.toFloat32.toFloat else x

namespace Parameter

/-- The type of a parameter, as the host names it. -/
def typeName : Parameter → String
  | .integer type => type.name
  | .real single => if single then "float32" else "float64"
  | .text => "string"
  | .flag => "bool"
  | .interface name _ => name
  | .other type => type.name

/-- Whether a parameter wants a text. -/
def isText : Parameter → Bool
  | .text => true
  | .other type => type.isText
  | _ => false

/-- What a parameter gets when the argument is missing. -/
def zero : Parameter → Datum
  | .integer type => .integer type 0
  | .real single => .real single 0
  | .text => .text ""
  | .flag => .flag false
  | .interface .. => .absent
  | .other type => type.zero

/-- Numbers, texts and truth values in the type of a parameter, if they
convert to it. -/
def ofDatum? : Parameter → Datum → Option Datum
  | .integer t, .integer _ n => some (.integer t (t.wrap n))
  | .integer t, .real _ x => some (.integer t (t.ofFloat x))
  | .real single, .integer _ n => some (.real single (inPrecision single (Binary64.ofInt n)))
  | .real single, .real _ x => some (.real single (inPrecision single x))
  | .text, .text s => some (.text s)
  | .text, .value (.symbol s) => some (.text s)
  | .flag, .flag b => some (.flag b)
  | _, _ => none

/-- What becomes of an argument. -/
def convert (p : Parameter) (v : Value) : Conversion :=
  match v, p with
  | .nil, p => .taken p.zero
  | v, .interface _ implementedBy =>
    if implementedBy v.toDatum then .taken v.toDatum else .refused
  | v, .other type => if type.isText == v.isText then type.convert v.toDatum else .refused
  | v, p => if p.isText == v.isText then .ofOption (p.ofDatum? v.toDatum) else .refused

/-- No conversion to the parameter breaks down. -/
def Steady (p : Parameter) : Prop :=
  ∀ v what, p.convert v ≠ .broken what

/-- Whether a parameter has a type of numbers, texts or truth values. -/
def IsPlain : Parameter → Prop
  | .integer _ | .real _ | .text | .flag => True
  | .interface .. | .other _ => False

theorem convert_nil (p : Parameter) : p.convert .nil = .taken p.zero := by
  cases p <;> rfl

/-- A plain parameter looks at whether the value is a text, then at what
it is to the host. -/
theorem convert_plain {p : Parameter} (hp : p.IsPlain) {v : Value} (hv : v ≠ .nil) :
    p.convert v
      = if p.isText == v.isText then .ofOption (p.ofDatum? v.toDatum) else .refused := by
  cases p with
  | interface name implementedBy => exact hp.elim
  | other type => exact hp.elim
  | _ =>
    cases v with
    | nil => exact absurd rfl hv
    | _ => rfl

theorem steady_plain {p : Parameter} (hp : p.IsPlain) : p.Steady := by
  intro v what h
  by_cases hv : v = .nil
  · rw [hv, convert_nil] at h
    cases h
  · rw [convert_plain hp hv] at h
    split at h
    · cases hd : p.ofDatum? v.toDatum <;> rw [hd] at h <;> cases h
    · cases h

theorem steady_interface (name : String) (implementedBy : Datum → Bool) :
    (interface name implementedBy).Steady := by
  intro v what h
  cases v with
  | nil => cases h
  | _ =>
    simp only [convert] at h
    split at h <;> cases h

/-- A type of the host is as steady as its own conversion. -/
theorem steady_other {type : HostType} (htype : ∀ d what, type.convert d ≠ .broken what) :
    (other type).Steady := by
  intro v what h
  cases v with
  | nil => cases h
  | _ =>
    simp only [convert] at h
    split at h
    · exact htype _ _ h
    · cases h

/-- An array with a number of places. A row converts to it by its first
items; one that is too short has the right type and breaks down. -/
def array (size : Nat) : Parameter :=
  .other ⟨"[" ++ Nat.repr size ++ "]interface \x7b\x7d", false,
    .array "[]interface \x7b\x7d" (List.replicate size .absent), fun
    | .value (.sequence _ items) =>
      if size ≤ items.length then
        .taken (.array "[]interface \x7b\x7d" ((items.take size).map .value))
      else .broken ("reflect: cannot convert slice with length " ++ Nat.repr items.length
        ++ " to array with length " ++ Nat.repr size)
    | _ => .refused⟩

end Parameter

/-- A parameter to which no conversion breaks down. -/
abbrev Slot := { p : Parameter // p.Steady }

namespace Slot

open Parameter

/-- Takes an integer of a type. -/
def integer (type : IntType) : Slot :=
  ⟨.integer type, steady_plain trivial⟩

/-- Takes a float. -/
def real (single : Bool) : Slot :=
  ⟨.real single, steady_plain trivial⟩

/-- Takes a text. -/
def text : Slot :=
  ⟨.text, steady_plain trivial⟩

/-- Takes a truth value. -/
def flag : Slot :=
  ⟨.flag, steady_plain trivial⟩

/-- Takes whatever implements an interface. -/
def interface (name : String) (implementedBy : Datum → Bool) : Slot :=
  ⟨.interface name implementedBy, steady_interface name implementedBy⟩

/-- Takes what has a type of the host's own, by what it is in that type. -/
def ofType (name : String) (zero : Datum) (own? : Datum → Option Datum) : Slot :=
  ⟨.other ⟨name, false, zero, fun d => .ofOption (own? d)⟩, steady_other fun d what h => by
    cases hd : own? d <;> simp only [hd, Conversion.ofOption] at h <;> cases h⟩

/-- Takes any value. -/
def anything : Slot :=
  .interface "interface \x7b\x7d" fun _ => true

end Slot

/-- Whether host data can show itself as text to the host. -/
def Datum.isPrintable : Datum → Bool
  | .value v =>
    match v with
    | .symbol _ | .literal .. | .wide .. | .list .. | .sequence .. | .library .. | .machine _ =>
      true
    | _ => false
  | .named .. => true
  | _ => false

/-- Takes whatever can show itself as text. -/
def Slot.printable : Slot :=
  .interface "fmt.Stringer" Datum.isPrintable

-- ================================================================== methods

/-- One result of a method: a datum, or an error. There is no error if all
went well; any other is a failure, and a datum like any other where it is
not the last result. -/
inductive Returned where
  | datum (d : Datum)
  | error (e : Option (Failure × Datum))

/-- A result as host data. -/
def Returned.toDatum : Returned → Datum
  | .datum d => d
  | .error none => .absent
  | .error (some (_, d)) => d

/-- How the body of a method ends: with its results, or by breaking down. -/
inductive Ending where
  | returned (results : List Returned)
  | panicked (what : String)

/-- What the body of a method comes to: how it ends, and what it stored in
place. -/
structure Reply where
  ending : Ending
  stored : Cells

namespace Reply

/-- Results, and nothing stored. -/
def returned (results : List Returned) : Reply :=
  ⟨.returned results, []⟩

/-- A breakdown, and nothing stored. -/
def panicked (what : String) : Reply :=
  ⟨.panicked what, []⟩

end Reply

/-- What the call of a method comes to. -/
structure Called where
  answer : Except Failure Value
  stored : Cells

/-- The parameters of a method, and the type of further arguments if it
takes any number of them. -/
structure Signature where
  params : List Parameter
  rest : Option Parameter

/-- What the arguments of a call come to. -/
inductive Prepared where
  | ready (params : List Datum)
  | refused (f : Fault)
  | broken (what : String)

/-- Puts a converted argument in front of the others. -/
def Prepared.cons (d : Datum) : Prepared → Prepared
  | .ready params => .ready (d :: params)
  | other => other

namespace Signature

/-- How many arguments a method takes. -/
def arity (s : Signature) : Arity :=
  match s.rest with
  | some _ => .atLeast s.params.length
  | none => .exactly s.params.length

/-- Converts the arguments one by one, up to the first that its parameter
does not take. -/
def convertArgs (procedure : String) (rest : Option Parameter) :
    Nat → List Parameter → List Value → Prepared
  | _, _, [] => .ready []
  | position, params, v :: args =>
    match params.head?.or rest with
    | none => .ready []
    | some p =>
      match p.convert v with
      | .refused => .refused (.argument procedure position p.typeName v.typeName)
      | .broken what => .broken what
      | .taken d => (convertArgs procedure rest (position + 1) params.tail args).cons d

/-- What the body gets: the converted arguments, if their number and
types are right. -/
def prepare (s : Signature) (procedure : String) (args : List Value) : Prepared :=
  if s.arity.admits args.length then convertArgs procedure s.rest 1 s.params args
  else .refused (.arity procedure s.arity args.length)

/-- The results of a method as one value. -/
def collect : List Datum → Value
  | [] => .nil
  | [d] => d.received
  | results => Value.row (results.map Datum.received)

/-- The answer to a call whose body has ended. -/
def finish (procedure : String) : Ending → Except Failure Value
  | .panicked what => .error (.other (procedure ++ "() panicked: " ++ what))
  | .returned results =>
    match results.getLast? with
    | some (.error (some (e, _))) => .error e
    | some (.error none) => .ok (collect (results.dropLast.map Returned.toDatum))
    | _ => .ok (collect (results.map Returned.toDatum))

/-- Calls a body with these parameters under the name it was found by;
`none` where a conversion breaks down. -/
def call? (s : Signature) (procedure : String) (args : List Value) (run : List Datum → Reply) :
    Option Called :=
  match s.prepare procedure args with
  | .refused f => some ⟨.error (.fault f), []⟩
  | .broken _ => none
  | .ready params =>
    let reply := run params
    some ⟨finish procedure reply.ending, reply.stored⟩

end Signature

/-- A method or function of the host: its parameters, the type of further
arguments if it takes any number of them, and its body. -/
structure Method where
  slots : List Slot
  rest : Option Slot
  run : List Datum → Reply

namespace Method

/-- The parameters of a method. -/
def signature (m : Method) : Signature :=
  ⟨m.slots.map (·.1), m.rest.map (·.1)⟩

/-- The arguments of a method do not break down on the way. -/
theorem convertArgs_ne_broken (procedure : String) (rest : Option Slot) (position : Nat)
    (slots : List Slot) (args : List Value) (what : String) :
    Signature.convertArgs procedure (rest.map (·.1)) position (slots.map (·.1)) args
      ≠ .broken what := by
  induction args generalizing position slots what with
  | nil => exact nofun
  | cons v args ih =>
    have hslot : (slots.map (·.1)).head?.or (rest.map (·.1))
        = (slots.head?.or rest).map (·.1) := by
      cases slots <;> rfl
    simp only [Signature.convertArgs, hslot, ← List.map_tail]
    cases slots.head?.or rest with
    | none => exact nofun
    | some slot =>
      simp only [Option.map_some]
      cases hconvert : slot.1.convert v with
      | refused => exact nofun
      | broken what => exact absurd hconvert (slot.2 v what)
      | taken d =>
        simp only
        cases hrest : Signature.convertArgs procedure (rest.map (·.1)) (position + 1)
            (slots.tail.map (·.1)) args with
        | ready params => exact nofun
        | refused f => exact nofun
        | broken what' => exact absurd hrest (ih (position + 1) slots.tail what')

/-- A method has an answer to every call. -/
theorem isSome_call? (m : Method) (procedure : String) (args : List Value) :
    (m.signature.call? procedure args m.run).isSome = true := by
  rw [Signature.call?, Signature.prepare]
  split
  · rfl
  · next what hprepare =>
    split at hprepare
    · exact absurd hprepare (convertArgs_ne_broken procedure m.rest 1 m.slots args what)
    · cases hprepare
  · rfl

/-- Calls a method under the name it was found by. -/
def call (m : Method) (procedure : String) (args : List Value) : Called :=
  (m.signature.call? procedure args m.run).get (m.isSome_call? procedure args)

/-- A method without parameters and with one result. -/
def constant (d : Datum) : Method :=
  ⟨[], none, fun _ => .returned [.datum d]⟩

end Method

/-- The breakdown of host code that follows an empty reference. -/
def emptyReference : Reply :=
  .panicked "runtime error: invalid memory address or nil pointer dereference"

end LispShell
