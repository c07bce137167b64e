/-
The mathematical procedures and constants.

A function that is no number where its argument is one is outside its
domain there, which is a fault.
-/
import LispShell.Standard.Arithmetic

namespace LispShell

/-- The ratio of a circle's circumference to its diameter. -/
def pi : Float := 3.141592653589793

/-- The base of the natural logarithm. -/
def euler : Float := 2.718281828459045

def Unary.apply : Unary → Float → Float
  | .sqrt, x => x.sqrt
  | .exp, x => x.exp
  | .log10, x => x.log10
  | .log2, x => x.log2
  | .sin, x => x.sin
  | .cos, x => x.cos
  | .tan, x => x.tan
  | .asin, x => x.asin
  | .acos, x => x.acos
  | .atan, x => x.atan
  | .sinh, x => x.sinh
  | .cosh, x => x.cosh
  | .tanh, x => x.tanh
  | .fabs, x => x.abs
  | .degrees, x => x * 180 / pi
  | .radians, x => x * pi / 180

def Binary.apply : Binary → Float → Float → Float
  | .pow, x, y => x.pow y
  | .atan2, x, y => x.atan2 y
  | .hypot, x, y => Binary64.hypotenuse x y
  | .fmod, x, y => Binary64.remainder x y
  | .copysign, x, y => Binary64.copySign x y

def Whole.rounding : Whole → Binary64.Rounding
  | .floor => .down
  | .ceil => .up
  | .trunc => .towardZero

def RealTest.holds : RealTest → Float → Bool
  | .isNaN, x => x.isNaN
  | .isInfinite, x => x.isInf

namespace Standard

def unaryFunction (f : Unary) (args : List Value) : Result := do
  let a ← oneArg f.name args
  let x ← realArg f.name a
  let r := f.apply x
  if r.isNaN && !x.isNaN then .error .domain else .ok (.float r)

def binaryFunction (f : Binary) (args : List Value) : Result := do
  let (a, b) ← twoArgs f.name args
  let x ← realArg f.name a
  let y ← realArg f.name b
  let r := f.apply x y
  if r.isNaN && !x.isNaN && !y.isNaN then .error .domain else .ok (.float r)

/-- Rounds to an integer, which may be wide. -/
def wholeFunction (f : Whole) (args : List Value) : Result := do
  let a ← oneArg f.name args
  match a.integer? with
  | some n => return Value.ofInt n
  | none =>
    let x ← realArg f.name a
    match Binary64.toInt? f.rounding x with
    | some n => return Value.ofInt n
    | none => .error (.notIntegral (Decimal.renderFloat x))

def realTest (f : RealTest) (args : List Value) : Result := do
  let a ← oneArg f.name args
  let x ← realArg f.name a
  return .bool (f.holds x)

/-- The natural logarithm, or the one to a given base. -/
def logarithm (args : List Value) : Result := do
  checkArity "log" (.between 1 2) args
  let x ← realArg "log" (args.headD .nil)
  if x ≤ 0 then .error .domain
  else match args.drop 1 with
    | [] => return .float x.log
    | b :: _ =>
      let base ← realArg "log" b
      if base ≤ 0 || base == 1 then .error .domain else return .float (x.log / base.log)

/-- The product of the numbers from one to `n`. -/
def product : Nat → Nat
  | 0 => 1
  | n + 1 => (n + 1) * product n

def factorialOf (args : List Value) : Result := do
  let a ← oneArg "factorial" args
  match a with
  | .int n => if n < 0 then .error .factorialNegative else return Value.ofInt (product n.toInt.toNat)
  | _ => .error (.factorialType a.typeName)

/-- The greatest common divisor. -/
def commonDivisor (args : List Value) : Result := do
  let (a, b) ← twoArgs "gcd" args
  match a.integer?, b.integer? with
  | some m, some n => return Value.ofInt (Int.gcd m n)
  | none, _ => .error (.divisorType a.typeName)
  | _, none => .error (.divisorType b.typeName)

end Standard

/-- The mathematical constants and procedures, by name. -/
def mathMembers : List (String × Value) :=
  [("pi", .float pi), ("e", .float euler), ("tau", .float (2 * pi)),
    ("inf", .float Binary64.infinity), ("nan", .float Binary64.nan)]
  ++ [Unary.sqrt, .exp, .log10, .log2, .sin, .cos, .tan, .asin, .acos, .atan, .sinh, .cosh,
      .tanh, .fabs, .degrees, .radians].map (fun f => (f.name, .proc (.standard (.unary f))))
  ++ [Binary.pow, .atan2, .hypot, .fmod, .copysign].map
      (fun f => (f.name, .proc (.standard (.binary f))))
  ++ [Whole.floor, .ceil, .trunc].map (fun f => (f.name, .proc (.standard (.whole f))))
  ++ [RealTest.isNaN, .isInfinite].map (fun f => (f.name, .proc (.standard (.test f))))
  ++ [("log", .proc (.standard .log)), ("factorial", .proc (.standard .factorial)),
      ("gcd", .proc (.standard .gcd))]

/-- What the root frame binds: the standard procedures, the truth values
and mathematics. -/
def rootMembers : List (String × Value) :=
  [("+", .proc (.standard .add)), ("-", .proc (.standard .sub)), ("*", .proc (.standard .mul)),
    ("/", .proc (.standard .div)), ("%", .proc (.standard .mod)), ("^", .proc (.standard .pow)),
    ("=", .proc (.standard .eq)), ("eq", .proc (.standard .eq)),
    ("<", .proc (.standard (.order .lt))), (">", .proc (.standard (.order .gt))),
    ("<=", .proc (.standard (.order .le))), (">=", .proc (.standard (.order .ge))),
    ("not", .proc (.standard .not)), ("true", .bool true), ("false", .bool false),
    ("print", .proc (.standard .print)), ("list", .proc (.standard .list)),
    ("len", .proc (.standard .len)), ("cond", .proc (.standard .cond)),
    ("dir", .proc (.standard .dir))]
  ++ mathMembers

end LispShell
