/-
The names of the standard procedures.

Each constructor is one procedure of the root frame; what it does is said
in `Standard.Arithmetic`, `Standard.Math` and, for those that need the
running program, in `Eval`.
-/
namespace LispShell

/-- The four order tests. -/
inductive Order where
  | lt
  | gt
  | le
  | ge
  deriving DecidableEq

/-- Real functions of one argument. -/
inductive Unary where
  | sqrt | exp | log10 | log2
  | sin | cos | tan | asin | acos | atan
  | sinh | cosh | tanh
  | fabs | degrees | radians
  deriving DecidableEq

/-- Real functions of two arguments. -/
inductive Binary where
  | pow | atan2 | hypot | fmod | copysign
  deriving DecidableEq

/-- Functions from reals to whole numbers. -/
inductive Whole where
  | floor | ceil | trunc
  deriving DecidableEq

/-- Tests on a real. -/
inductive RealTest where
  | isNaN | isInfinite
  deriving DecidableEq

/-- The standard procedures. -/
inductive Standard where
  | add | sub | mul | div | mod | pow
  | eq
  | order (o : Order)
  | not
  | print | list | len
  | cond | dir
  | unary (f : Unary)
  | binary (f : Binary)
  | whole (f : Whole)
  | test (f : RealTest)
  | log | factorial | gcd
  deriving DecidableEq

/-- How an order test calls itself in its complaints. -/
def Order.name : Order → String
  | .lt => "lt"
  | .gt => "gt"
  | .le => "le"
  | .ge => "ge"

def Unary.name : Unary → String
  | .sqrt => "sqrt"
  | .exp => "exp"
  | .log10 => "log10"
  | .log2 => "log2"
  | .sin => "sin"
  | .cos => "cos"
  | .tan => "tan"
  | .asin => "asin"
  | .acos => "acos"
  | .atan => "atan"
  | .sinh => "sinh"
  | .cosh => "cosh"
  | .tanh => "tanh"
  | .fabs => "fabs"
  | .degrees => "degrees"
  | .radians => "radians"

def Binary.name : Binary → String
  | .pow => "pow"
  | .atan2 => "atan2"
  | .hypot => "hypot"
  | .fmod => "fmod"
  | .copysign => "copysign"

def Whole.name : Whole → String
  | .floor => "floor"
  | .ceil => "ceil"
  | .trunc => "trunc"

def RealTest.name : RealTest → String
  | .isNaN => "isnan"
  | .isInfinite => "isinf"

end LispShell
