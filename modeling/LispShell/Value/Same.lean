/-
When two values are the same.

Values are compared item by item. Two things are never the same as
themselves when they stand alone: what is not a number, and a procedure.
But a list, a sequence or a piece of host data that is met on both sides
is one and the same, whatever it holds. So the comparison carries whether
it is inside of something shared: there, and only there, such things
agree.

Different kinds of values differ: an integer is not the same as a float,
a quoted list not the same as a sequence, a wide literal not the same as
the integer it stands for. Zero is the same as negative zero.
-/
import LispShell.Value.Basic

namespace LispShell

/-- Whether two floats are the same. -/
def sameFloat (shared : Bool) (x y : Float) : Bool :=
  x == y || (shared && x.isNaN && y.isNaN)

mutual

/-- Whether two expressions are the same. -/
def Expr.same (shared : Bool) (a b : Code) : Bool :=
  match a, b with
  | .int m, .int n => m == n
  | .wide _ m, .wide _ n => m == n
  | .float x, .float y => sameFloat shared x y
  | .text s, .text t => s == t
  | .symbol a, .symbol b => a == b
  | .list m xs, .list n ys => Expr.sameAll (shared || m.same n) xs ys
  | _, _ => false
termination_by structural a

/-- Whether two lists of expressions are the same. -/
def Expr.sameAll (shared : Bool) (a b : List Code) : Bool :=
  match a, b with
  | [], [] => true
  | x :: xs, y :: ys => Expr.same shared x y && Expr.sameAll shared xs ys
  | _, _ => false
termination_by structural a

end

mutual

/-- Whether two values are the same. -/
def Value.same (shared : Bool) (a b : Value) : Bool :=
  match a, b with
  | .nil, .nil => true
  | .bool a, .bool b => a == b
  | .int m, .int n => m == n
  | .wide _ m, .wide _ n => m == n
  | .float x, .float y => sameFloat shared x y
  | .text s, .text t => s == t
  | .symbol a, .symbol b => a == b
  | .literal _ m, .literal _ n => m == n
  | .list m xs, .list n ys => Expr.sameAll (shared || m.same n) xs ys
  | .sequence m xs, .sequence n ys => Value.sameAll (shared || m.same n) xs ys
  | .proc p, .proc q => shared && Proc.same p q
  | .library m a xs, .library n b ys => a == b && Value.sameMembers (shared || m.same n) xs ys
  | .machine a, .machine b => a == b
  | .object c, .object d => Datum.same shared c d
  | _, _ => false
termination_by structural a

/-- Whether two rows of values are the same. -/
def Value.sameAll (shared : Bool) (a b : List Value) : Bool :=
  match a, b with
  | [], [] => true
  | x :: xs, y :: ys => Value.same shared x y && Value.sameAll shared xs ys
  | _, _ => false
termination_by structural a

/-- Whether two libraries have the same members. -/
def Value.sameMembers (shared : Bool) (a b : List (String × Value)) : Bool :=
  match a, b with
  | [], [] => true
  | (a, x) :: xs, (b, y) :: ys => a == b && Value.same shared x y && Value.sameMembers shared xs ys
  | _, _ => false
termination_by structural a

/-- Whether two procedures have the same name. -/
def Proc.same (a b : Proc) : Bool :=
  match a, b with
  | .standard p, .standard q => p == q
  | .host p, .host q => p == q
  | .machine a f, .machine b g => a == b && f == g
  | .method r a, .method s b => Value.same true r s && a == b
  | .function a k, .function b l => a == b && k == l
  | _, _ => false
termination_by structural a

/-- Whether two pieces of host data are the same. -/
def Datum.same (shared : Bool) (a b : Datum) : Bool :=
  match a, b with
  | .absent, .absent => true
  | .integer s m, .integer t n => s == t && m == n
  | .real s x, .real t y => s == t && sameFloat shared x y
  | .text s, .text t => s == t
  | .flag a, .flag b => a == b
  | .texts xs, .texts ys => xs == ys
  | .bytes _ xs, .bytes _ ys => xs == ys
  | .array s xs, .array t ys => s == t && Datum.sameAll shared xs ys
  | .record s xs, .record t ys => s == t && Datum.sameFields shared xs ys
  | .reference i x, .reference j y => Datum.same (shared || i == j) x y
  | .table i s a xs, .table j t b ys =>
    s == t && a == b && Datum.sameEntries (shared || i == j) xs ys
  | .function s none, .function t none => s == t
  | .function s (some k), .function t (some l) => shared && s == t && k == l
  | .named s a, .named t b => s == t && a == b
  | .value v, .value w => Value.same shared v w
  | _, _ => false
termination_by structural a

/-- Whether two rows of host data are the same. -/
def Datum.sameAll (shared : Bool) (a b : List Datum) : Bool :=
  match a, b with
  | [], [] => true
  | x :: xs, y :: ys => Datum.same shared x y && Datum.sameAll shared xs ys
  | _, _ => false
termination_by structural a

/-- Whether two records have the same fields. -/
def Datum.sameFields (shared : Bool) (a b : List Field) : Bool :=
  match a, b with
  | [], [] => true
  | .field a _ _ x :: xs, .field b _ _ y :: ys =>
    a == b && Datum.same shared x y && Datum.sameFields shared xs ys
  | _, _ => false
termination_by structural a

/-- Whether two tables have the same entries. -/
def Datum.sameEntries (shared : Bool) (a b : List (String × Datum)) : Bool :=
  match a, b with
  | [], [] => true
  | (a, x) :: xs, (b, y) :: ys => a == b && Datum.same shared x y && Datum.sameEntries shared xs ys
  | _, _ => false
termination_by structural a

end

end LispShell
