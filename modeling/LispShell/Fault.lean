/-
What can go wrong.

A `Fault` is a cause the language itself knows, one constructor for each;
its kind and its wording are functions of it. A `Failure` is what a
computation ends with when it has no value: a fault, a fault of a
procedure as its caller sees it, a fault that a procedure of the host
raised because of another failure, a cancellation, a file that could not be
read, or text from the outside, possibly with a label of where it
happened.

# Type errors of procedures

A procedure that complains about the number or the type of its arguments
raises a `TypeError`; its caller reports that as a `NameError` with the
same message (`Failure.ofCall`). The first fault found from the outside
decides, so an error that is merely labelled is recast too.
-/
import LispShell.Decimal.Layout

namespace LispShell

/-- The kinds of faults. -/
inductive Kind where
  | malformed
  | name
  | typing
  | value
  | zeroDivision
  | member
  | missingModule
  deriving DecidableEq

/-- The word that stands before a message. -/
def Kind.label : Kind → String
  | .malformed => "SyntaxError"
  | .name => "NameError"
  | .typing => "TypeError"
  | .value => "ValueError"
  | .zeroDivision => "ZeroDivisionError"
  | .member => "AttributeError"
  | .missingModule => "ModuleNotFoundError"

/-- How many arguments a procedure takes. -/
structure Arity where
  least : Nat
  most : Option Nat

/-- Exactly `n` arguments. -/
def Arity.exactly (n : Nat) : Arity := ⟨n, some n⟩

/-- From `least` to `most` arguments. -/
def Arity.between (least most : Nat) : Arity := ⟨least, some most⟩

/-- `n` arguments or more. -/
def Arity.atLeast (n : Nat) : Arity := ⟨n, none⟩

/-- Whether `n` arguments are right. -/
def Arity.admits (a : Arity) (n : Nat) : Bool :=
  a.least ≤ n && (match a.most with
    | some m => n ≤ m
    | none => true)

/-- What is said when `n` arguments are wrong. -/
def Arity.complaint (a : Arity) (n : Nat) : String :=
  let given := " arguments (" ++ Nat.repr n ++ " given)"
  if a.most == some a.least then "exactly " ++ Nat.repr a.least ++ given
  else if n < a.least then "at least " ++ Nat.repr a.least ++ given
  else "at most " ++ Nat.repr (a.most.getD 0) ++ given

/-- The causes that the language knows. -/
inductive Fault where
  /-- A string literal is not closed. -/
  | quoteMismatch
  /-- There is nothing left to read. -/
  | unexpectedEnd
  /-- The input ended inside a list. -/
  | missingClose
  /-- A closing parenthesis has no partner. -/
  | unexpectedClose
  /-- `.` with the wrong number of parts. -/
  | dotForm (form : String)
  /-- The second part of `.` is no symbol. -/
  | attributeName (got : String)
  /-- `if` with the wrong number of parts. -/
  | ifForm (form : String)
  /-- `define` with the wrong number of parts. -/
  | defineForm (form : String)
  /-- The first part of `define` is no symbol. -/
  | defineName (got : String)
  /-- `import` with the wrong number of parts. -/
  | importForm (form : String)
  /-- The name given to `import` is no text. -/
  | moduleName (got : String)
  /-- No frame binds the symbol. -/
  | unbound (name : String)
  /-- A procedure got the wrong number of arguments. -/
  | arity (procedure : String) (takes : Arity) (given : Nat)
  /-- An operand is no number. -/
  | operand (procedure type : String)
  /-- An argument is no real number. -/
  | notReal (procedure type : String)
  /-- The value has no length. -/
  | noLength (type : String)
  /-- The value has no members to list. -/
  | noListing (type : String)
  /-- An argument has the wrong type. -/
  | argument (procedure : String) (position : Nat) (wanted got : String)
  /-- An argument does not fit the machine type. -/
  | argumentRange (procedure : String) (position : Nat) (type : String)
  /-- The factorial of something else than a plain integer. -/
  | factorialType (type : String)
  /-- The factorial of a negative integer. -/
  | factorialNegative
  /-- The common divisor of something else than integers. -/
  | divisorType (type : String)
  /-- A negative number of copies. -/
  | negativeCount
  /-- A mathematical function has no value there. -/
  | domain
  /-- An infinity or what is no number has no integer. -/
  | notIntegral (float : String)
  /-- The text of a number spells none. -/
  | notNumber (text : String)
  /-- Division by zero. -/
  | divisionByZero
  /-- An integer remainder by zero. -/
  | integerModulo
  /-- A float remainder by zero. -/
  | floatModulo
  /-- The value has no such member. -/
  | noMember (type name : String)
  /-- The module has no such member. -/
  | noModuleMember (module name : String)
  /-- No resolver knows the module. -/
  | noModule (name : String)
  /-- A machine value that the language cannot hold. -/
  | machineType (type : String)
  /-- Raised by a host procedure. -/
  | raised (kind : Kind) (message : String)

namespace Fault

/-- The kind of a fault. -/
def kind : Fault → Kind
  | .quoteMismatch | .unexpectedEnd | .missingClose | .unexpectedClose => .malformed
  | .dotForm _ | .attributeName _ | .ifForm _ | .defineForm _ | .defineName _
  | .importForm _ => .malformed
  | .unbound _ => .name
  | .moduleName _ | .arity .. | .operand .. | .notReal .. | .noLength _ | .noListing _
  | .argument .. | .factorialType _ | .divisorType _ | .machineType _ => .typing
  | .argumentRange .. | .factorialNegative | .negativeCount | .domain | .notIntegral _
  | .notNumber _ => .value
  | .divisionByZero | .integerModulo | .floatModulo => .zeroDivision
  | .noMember .. | .noModuleMember .. => .member
  | .noModule _ => .missingModule
  | .raised k _ => k

/-- The wording of a fault. -/
def message : Fault → String
  | .quoteMismatch => "quote mismatch"
  | .unexpectedEnd => "unexpected end of input"
  | .missingClose => "missing closing parenthesis"
  | .unexpectedClose => "unexpected closing parenthesis"
  | .dotForm form =>
    ". requires exactly two arguments (the object and the attribute name), got " ++ form
  | .attributeName got => "attribute name must be a symbol, got " ++ got
  | .ifForm form =>
    "if requires two or three arguments (test, consequence, and optional alternative), got "
      ++ form
  | .defineForm form =>
    "define requires exactly two arguments (the name of the variable and its value), got "
      ++ form
  | .defineName got => "define requires a symbol as its name, got " ++ got
  | .importForm form =>
    "import requires exactly 1 argument (the name of the module), got " ++ form
  | .moduleName got => "module name must be a string, got " ++ got
  | .unbound name => "no variable named " ++ name
  | .arity procedure takes given => procedure ++ "() takes " ++ takes.complaint given
  | .operand procedure type =>
    "unsupported operand type for " ++ procedure ++ "(): '" ++ type ++ "'"
  | .notReal procedure type =>
    "must be real number, not " ++ type ++ ", in " ++ procedure ++ "()"
  | .noLength type => "object of type '" ++ type ++ "' has no len()"
  | .noListing type => "dir() of '" ++ type ++ "' is not supported"
  | .argument procedure position wanted got =>
    procedure ++ "() argument " ++ Nat.repr position ++ " must be " ++ wanted ++ ", not " ++ got
  | .argumentRange procedure position type =>
    procedure ++ "() argument " ++ Nat.repr position ++ " out of range for " ++ type
  | .factorialType type => "factorial() only accepts integral values, not " ++ type
  | .factorialNegative => "factorial() not defined for negative values"
  | .divisorType type => "gcd() only accepts integers, not " ++ type
  | .negativeCount => "repeat() count must be non-negative"
  | .domain => "math domain error"
  | .notIntegral float => "cannot convert float " ++ float ++ " to integer"
  | .notNumber text => "cannot convert " ++ text ++ " to a number"
  | .divisionByZero => "division by zero"
  | .integerModulo => "integer division or modulo by zero"
  | .floatModulo => "float modulo"
  | .noMember type name => "'" ++ type ++ "' object has no attribute '" ++ name ++ "'"
  | .noModuleMember module name => "module '" ++ module ++ "' has no attribute '" ++ name ++ "'"
  | .noModule name => "no module named '" ++ name ++ "'"
  | .machineType type => "unsupported wasm value type " ++ type
  | .raised _ message => message

/-- Whether more input could mend the fault: it ended inside a list or a
string literal. -/
def incomplete : Fault → Bool
  | .quoteMismatch | .missingClose => true
  | _ => false

end Fault

/-- Why a file could not be used. -/
inductive FileTrouble where
  | missing
  | isDirectory
  | notDirectory
  /-- A name has more bytes than a disk can hold. -/
  | tooLong
  /-- A name has a character that no name can have. -/
  | unusable
  deriving DecidableEq

/-- The wording of a file trouble. -/
def FileTrouble.message : FileTrouble → String
  | .missing => "no such file or directory"
  | .isDirectory => "is a directory"
  | .notDirectory => "not a directory"
  | .tooLong => "file name too long"
  | .unusable => "invalid argument"

/-- What a computation ends with when it has no value. -/
inductive Failure where
  /-- A cause that the language knows. -/
  | fault (f : Fault)
  /-- A type error of a procedure, as its caller reports it. -/
  | recast (cause : Failure)
  /-- Raised by a host procedure, because of another failure. -/
  | caused (kind : Kind) (message : String) (cause : Failure)
  /-- The computation was cancelled. -/
  | canceled
  /-- A file could not be used. -/
  | file (action path : String) (trouble : FileTrouble)
  /-- A failure with a label of where it happened. -/
  | within (label : String) (cause : Failure)
  /-- Text from the outside. -/
  | other (text : String)

namespace Failure

/-- The outermost fault: its kind and its message. A recast failure is a
`NameError` with the message of its cause. -/
def leading? : Failure → Option (Kind × String)
  | .fault f => some (f.kind, f.message)
  | .recast cause => some (.name, (cause.leading?.map (·.2)).getD "")
  | .caused kind message _ => some (kind, message)
  | .within _ cause => cause.leading?
  | .canceled | .file .. | .other _ => none

/-- The full text of a failure. -/
def message : Failure → String
  | .fault f => f.kind.label ++ ": " ++ f.message
  | .recast cause => Kind.name.label ++ ": " ++ (cause.leading?.map (·.2)).getD ""
  | .caused kind message _ => kind.label ++ ": " ++ message
  | .canceled => "context canceled"
  | .file action path trouble => action ++ " " ++ path ++ ": " ++ trouble.message
  | .within label cause => label ++ ": " ++ cause.message
  | .other text => text

/-- The kinds of all faults among the causes. -/
def kinds : Failure → List Kind
  | .fault f => [f.kind]
  | .recast cause => .name :: cause.kinds
  | .caused kind _ cause => kind :: cause.kinds
  | .within _ cause => cause.kinds
  | .canceled | .file .. | .other _ => []

/-- Whether a fault of the kind is among the causes. -/
def has (e : Failure) (k : Kind) : Bool :=
  e.kinds.contains k

/-- Whether more input could mend the failure. -/
def incomplete : Failure → Bool
  | .fault f => f.incomplete
  | .recast cause | .caused _ _ cause | .within _ cause => cause.incomplete
  | .canceled | .file .. | .other _ => false

/-- Whether a cancellation is among the causes. -/
def isCanceled : Failure → Bool
  | .canceled => true
  | .recast cause | .caused _ _ cause | .within _ cause => cause.isCanceled
  | .fault _ | .file .. | .other _ => false

/-- Whether a missing file is among the causes. -/
def isMissingFile : Failure → Bool
  | .file _ _ trouble => trouble == .missing
  | .recast cause | .caused _ _ cause | .within _ cause => cause.isMissingFile
  | .fault _ | .canceled | .other _ => false

/-- A procedure's failure as its caller reports it. -/
def ofCall (e : Failure) : Failure :=
  match e.leading? with
  | some (.typing, _) => .recast e
  | _ => e

end Failure

end LispShell
