/-
The methods of wide integers.

A wide integer has two kinds of methods. Those that look at it
(`wideReaders`) answer with narrow numbers, texts, flags and rows. Those
that set it (`wideSetters`) compute something from their parameters, store
it in the integer they are called on and give that integer back, also
where it now fits 64 bits. Some store in a parameter as well, and `FillBytes`
and `Append` write to the row of bytes they are given.

# Rows of bytes

`Append` may write behind the end of its row, where rows that were made
from it before have their own end. The rows here have no such room: it
gives back a new row. It counts as a call that stores, all the same.

# Primes

A number is called probably prime if it passes the strong test to the
first thirteen prime bases, which is exact below `3.3 * 10^24`. A root
modulo a number that is no odd prime is whatever the search ends with.
-/
import LispShell.Standard.Arithmetic
import LispShell.Value.Method

namespace LispShell

open scoped Power

namespace Wide

-- ===================================================================== digits

/-- The digits of `n` in a base, the highest first, put in front of
`acc`. -/
def digits (base n : Nat) (acc : List Nat) : List Nat :=
  if _h : n = 0 ∨ base < 2 then acc
  else digits base (n / base) (n % base :: acc)
termination_by n
decreasing_by
  exact Nat.div_lt_self (Nat.pos_of_ne_zero fun e => _h (.inl e)) (by omega)

/-- The number that digits in a base spell. -/
def ofDigits (base : Nat) (ds : List Nat) : Nat :=
  ds.foldl (fun n d => base * n + d) 0

/-- The digit with the given value in bases up to 62. -/
def digitChar (n : Nat) : Char :=
  if n < 10 then Char.ofNat ('0'.toNat + n)
  else if n < 36 then Char.ofNat ('a'.toNat + (n - 10))
  else Char.ofNat ('A'.toNat + (n - 36))

/-- An integer in a base from 2 to 62. -/
def render (base : Nat) (n : Int) : String :=
  let ds := if n == 0 then ['0'] else (digits base n.natAbs []).map digitChar
  String.ofList (if n < 0 then '-' :: ds else ds)

/-- The bytes of a number, the highest first. -/
def toBytes (n : Nat) : List UInt8 :=
  (digits 256 n []).map UInt8.ofNat

/-- The number that bytes spell. -/
def ofBytes (row : List UInt8) : Nat :=
  ofDigits 256 (row.map UInt8.toNat)

/-- The bytes of a text. -/
def textBytes (s : String) : List UInt8 :=
  s.toList.map fun c => UInt8.ofNat c.toNat

/-- The text that bytes are. -/
def bytesText (row : List UInt8) : String :=
  String.ofList (row.map fun b => Char.ofNat b.toNat)

/-- The machine words of a number, the lowest first. -/
def toWords (n : Nat) : List Datum :=
  (digits (2 ^ (64 : Nat)) n []).reverse.map fun (w : Nat) => .integer .uint w

/-- The number that machine words spell. -/
def ofWords (words : List Datum) : Nat :=
  ofDigits (2 ^ (64 : Nat)) (words.reverse.map fun
    | .integer _ w => w.toNat
    | _ => 0)

-- ================================================================ arithmetic

/-- The sign of an integer. -/
def sign (n : Int) : Int :=
  if n < 0 then -1 else if n == 0 then 0 else 1

/-- How many bits the size of an integer takes. -/
def bitLength (n : Int) : Nat :=
  if n == 0 then 0 else n.natAbs.log2 + 1

/-- A bit of an integer, negative ones as two's complement. -/
def bit (n : Int) (i : Nat) : Int :=
  (n >>> i) % 2

/-- How many zero bits a number ends with. -/
def trailingZeros (n : Nat) : Nat :=
  if _h : n = 0 ∨ n % 2 = 1 then 0 else trailingZeros (n / 2) + 1
termination_by n
decreasing_by omega

/-- All bits turned round. -/
def bitNot (n : Int) : Int :=
  -n - 1

/-- The bits that both integers have. -/
def bitAnd : Int → Int → Int
  | .ofNat m, .ofNat n => (m &&& n : Nat)
  | .ofNat m, .negSucc n => (m - (m &&& n) : Nat)
  | .negSucc m, .ofNat n => (n - (n &&& m) : Nat)
  | .negSucc m, .negSucc n => .negSucc (m ||| n)

/-- The bits that one of two integers has. -/
def bitOr (m n : Int) : Int :=
  bitNot (bitAnd (bitNot m) (bitNot n))

/-- The integer part of a square root. -/
def root (n : Nat) : Nat :=
  if _h : n = 0 then 0
  else
    let r := 2 * root (n / 4)
    if (r + 1) * (r + 1) ≤ n then r + 1 else r
termination_by n
decreasing_by omega

/-- A power in the remainders of a modulus. -/
def powerMod (modulus base exponent : Nat) : Nat :=
  if _h : exponent = 0 then 1 % modulus
  else
    let half := powerMod modulus (base * base % modulus) (exponent / 2)
    if exponent % 2 = 1 then base * half % modulus else half
termination_by exponent
decreasing_by omega

/-- The greatest common divisor that division with remainder ends with,
and the factor of the first number, given the factors on the way. -/
def bezout (a b : Nat) (s t : Int) : Nat × Int :=
  if _h : b = 0 then (a, s) else bezout b (a % b) t (s - (a / b : Nat) * t)
termination_by b
decreasing_by exact Nat.mod_lt a (Nat.pos_of_ne_zero _h)

/-- The inverse of an integer in the remainders of a modulus, if it has
one. -/
def inverse? (g n : Int) : Option Int :=
  let modulus := n.natAbs
  let (d, x) := bezout (if g < 0 then g % modulus else g).natAbs modulus 1 0
  if d = 1 then some (if x < 0 then x + modulus else x) else none

/-- A power, in the remainders of the modulus unless that is zero; none
if it is the power of an inverse that does not exist. -/
def power? (x y m : Int) : Option Int :=
  if y < 0 && m == 0 then some 1
  else
    let base? : Option Nat := if y < 0 then (inverse? x m).map Int.natAbs else some x.natAbs
    base?.map fun (base : Nat) =>
      let size : Nat :=
        if m == 0 then (Standard.intPower (base : Nat) y.natAbs).natAbs
        else powerMod m.natAbs base y.natAbs
      if x < 0 && y.natAbs % 2 == 1 && size != 0 then
        if m == 0 then -(size : Int) else m.natAbs - size
      else size

/-- The product of all integers from `a` to `b`. -/
def rangeProduct (a b : Int) : Int :=
  if b < a then 1
  else if a ≤ 0 && 0 ≤ b then 0
  else (List.range (b - a + 1).toNat).foldl (fun p (i : Nat) => p * (a + i)) 1

/-- How many ways there are to choose `k` of `n`. -/
def binomial (n k : Int) : Int :=
  if n < k then 0
  else (List.range (min k (n - k)).toNat).foldl
    (fun z (i : Nat) => (z * (n - i)).tdiv (i + 1)) 1

-- ==================================================================== primes

/-- The bases of the strong test. -/
def primeBases : List Nat :=
  [2, 3, 5, 7, 11, 13, 17, 19, 23, 29, 31, 37, 41]

/-- Whether an odd number passes the strong test to a base. -/
def passes (n base : Nat) : Bool :=
  let twos := trailingZeros (n - 1)
  let start := powerMod n base ((n - 1) / 2 ^ twos)
  start == 1 || (List.range twos).any fun i => powerMod n start (2 ^ i) == n - 1

/-- Whether a number is probably prime. -/
def isProbablyPrime (n : Int) : Bool :=
  if n < 2 then false
  else if primeBases.contains n.toNat then true
  else primeBases.all fun p => n.toNat % p != 0 && passes n.toNat p

/-- Moves a root modulo an odd prime until its square is right. `b` is how
far it is off, the order of `g` is `2 ^ r`, and the order of `b` is less
and goes down with every turn, so there are at most `turns` of them. -/
def adjust (p : Nat) : (turns r y b g : Nat) → Nat
  | 0, _, y, _, _ => y
  | turns + 1, r, y, b, g =>
    match (List.range r).find? fun m => powerMod p b (2 ^ m) == 1 with
    | none | some 0 => y
    | some m =>
      let t := powerMod p g (2 ^ (r - m - 1))
      let square := t * t % p
      adjust p turns m (y * t % p) (b * square % p) square

/-- A square root modulo an odd prime, if there is one. -/
def rootMod? (x p : Int) : Option Int :=
  let n := p.natAbs
  let x := (x % p).toNat
  let residue := powerMod n x ((n - 1) / 2)
  if residue == 0 then some 0
  else if residue != 1 then none
  else if n % 4 == 3 then some (powerMod n x ((n + 1) / 4))
  else if n % 8 == 5 then
    let alpha := powerMod n (2 * x) (n / 8)
    let beta := (alpha * alpha * (2 * x) + n - 1) % n
    some (beta * x * alpha % n : Nat)
  else
    let twos := trailingZeros (n - 1)
    let odd := (n - 1) / 2 ^ twos
    let stranger := ((List.range (2 * n.log2 * n.log2 + 8)).find? fun k =>
      powerMod n k ((n - 1) / 2) == n - 1).getD 2
    some (adjust n twos twos (powerMod n x ((odd + 1) / 2)) (powerMod n x odd)
      (powerMod n stranger odd))

-- =================================================================== reading

/-- The value of a digit in a base up to 62. -/
def digitValue? (base : Nat) (c : Char) : Option Nat :=
  let value := if '0' ≤ c && c ≤ '9' then c.toNat - '0'.toNat
    else if 'a' ≤ c && c ≤ 'z' then c.toNat - 'a'.toNat + 10
    else if 'A' ≤ c && c ≤ 'Z' then
      if base ≤ 36 then c.toNat - 'A'.toNat + 10 else c.toNat - 'A'.toNat + 36
    else base
  if value < base then some value else none

/-- How far a number is read: its value, how many digits it had, whether
the last character was a digit, whether an underscore was out of place,
and whether one waits for its next digit. -/
structure Scan where
  n : Nat
  count : Nat
  afterDigit : Bool
  misplaced : Bool
  pending : Bool

/-- Reads digits and, where they are allowed, underscores between them;
answers what is left too. -/
def scanDigits (base : Nat) (underscores : Bool) : Scan → List Char → Scan × List Char
  | s, [] => (s, [])
  | s, c :: cs =>
    if underscores && c == '_' then
      scanDigits base underscores
        { s with
          misplaced := s.misplaced || !s.afterDigit
          afterDigit := false
          pending := true } cs
    else match digitValue? base c with
      | none => (s, c :: cs)
      | some d =>
        scanDigits base underscores ⟨base * s.n + d, s.count + 1, true, s.misplaced, false⟩ cs

/-- The base of a number, whether a zero alone announced it, and where its
digits start. Only base zero leaves it to the number. -/
def scanBase (base : Nat) (cs : List Char) : Nat × Bool × Scan × List Char :=
  if base != 0 then (base, false, ⟨0, 0, false, false, false⟩, cs)
  else match cs with
    | '0' :: 'b' :: cs | '0' :: 'B' :: cs => (2, false, ⟨0, 0, true, false, false⟩, cs)
    | '0' :: 'o' :: cs | '0' :: 'O' :: cs => (8, false, ⟨0, 0, true, false, false⟩, cs)
    | '0' :: 'x' :: cs | '0' :: 'X' :: cs => (16, false, ⟨0, 0, true, false, false⟩, cs)
    | '0' :: c :: cs => (8, true, ⟨0, 0, true, false, false⟩, c :: cs)
    | ['0'] => (10, false, ⟨0, 1, true, false, false⟩, [])
    | cs => (10, false, ⟨0, 0, false, false, false⟩, cs)

/-- Reads a text into an integer that holds `old`: whether all of it was
read, and what the integer then holds, which is changed also where
something was wrong. -/
def scan (base : Nat) (old : Int) (cs : List Char) : Bool × Int :=
  if cs.isEmpty then (false, old)
  else
    let (negative, body) := Decimal.signed cs
    let (actual, octal, start, body) := scanBase base body
    let (s, left) := scanDigits actual (base == 0) start body
    if s.misplaced || s.pending || (s.count == 0 && !octal) then
      (false, if old < 0 then -(s.n : Int) else s.n)
    else (left.isEmpty, if negative then -(s.n : Int) else s.n)

-- ================================================================ parameters

/-- Takes a wide integer. -/
def slot : Slot :=
  .ofType "*big.Int" .absent fun
    | .value (.wide mark n) => some (.value (.wide mark n))
    | _ => none

/-- Takes a row of bytes. -/
def bytesSlot : Slot :=
  .ofType "[]uint8" (.bytes .blank []) fun
    | .bytes mark row => some (.bytes mark row)
    | _ => none

/-- Takes a row of machine words. -/
def wordsSlot : Slot :=
  .ofType "[]big.Word" (.array "[]big.Word" []) fun
    | .array "[]big.Word" items => some (.array "[]big.Word" items)
    | _ => none

/-- Takes what no program can get hold of. -/
def closedSlot (name : String) : Slot :=
  .ofType name .absent fun _ => none

/-- Takes what implements an interface that no value has. -/
def strangeSlot (name : String) : Slot :=
  .interface name fun _ => false

/-- The integer that a parameter is, none for an empty reference. -/
def whole? : Datum → Option Int
  | .integer _ n => some n
  | .value (.wide _ n) => some n
  | _ => none

-- =================================================================== methods

/-- A method that answers with one datum, or breaks down. -/
def looking (slots : List Slot) (f : List Int → Except String Datum) : Method :=
  ⟨slots, none, fun params =>
    match params.mapM whole? with
    | none => emptyReference
    | some ns =>
      match f ns with
      | .error what => .panicked what
      | .ok d => .returned [.datum d]⟩

/-- The text of an integer in a base. -/
def inBase (n base : Int) : Except String String :=
  if base < 2 || 62 < base then .error "invalid base" else .ok (render base.toNat n)

/-- The nearest float, and on which side of the integer it is. -/
def nearest (n : Int) : List Returned :=
  let x := Binary64.ofInt n
  let side := match Binary64.toInt? .towardZero x with
    | some k => if k < n then "Below" else if k == n then "Exact" else "Above"
    | none => if n < 0 then "Below" else "Above"
  [.datum (.real false x), .datum (.named "big.Accuracy" side)]

/-- The text of an integer as a row of bytes, and no error. -/
def marshalled (n : Int) : Method :=
  ⟨[], none, fun _ =>
    .returned [.datum (.bytes .blank (textBytes (Decimal.renderInt n))), .error none]⟩

/-- The methods that look at a wide integer, by name. -/
def readers (n : Int) : List (String × Method) :=
  [("String", .constant (.text (Decimal.renderInt n))),
    ("Sign", .constant (.integer .int (sign n))),
    ("BitLen", .constant (.integer .int (bitLength n))),
    ("TrailingZeroBits", .constant (.integer .uint (trailingZeros n.natAbs))),
    ("IsInt64", .constant (.flag (Value.isNarrow n))),
    ("IsUint64", .constant (.flag (0 ≤ n && n < 2 ^ (64 : Nat)))),
    ("Int64", .constant (.integer .int64 (IntType.int64.wrap n))),
    ("Uint64", .constant (.integer .uint64 (IntType.uint64.wrap n.natAbs))),
    ("Bytes", .constant (.bytes .blank (toBytes n.natAbs))),
    ("Bits", .constant (.array "[]big.Word" (toWords n.natAbs))),
    ("Float64", ⟨[], none, fun _ => .returned (nearest n)⟩),
    ("Text", looking [.integer .int] fun ns =>
      (inBase n (ns.headD 0)).map .text),
    ("Cmp", looking [slot] fun ns => .ok (.integer .int (sign (n - ns.headD 0)))),
    ("CmpAbs", looking [slot] fun ns =>
      .ok (.integer .int (sign ((n.natAbs : Int) - (ns.headD 0).natAbs)))),
    ("Bit", looking [.integer .int] fun ns =>
      if ns.headD 0 < 0 then .error "negative bit index"
      else .ok (.integer .uint (bit n (ns.headD 0).toNat))),
    ("ProbablyPrime", looking [.integer .int] fun ns =>
      if ns.headD 0 < 0 then .error "negative n for ProbablyPrime"
      else .ok (.flag (isProbablyPrime n))),
    ("MarshalText", marshalled n),
    ("MarshalJSON", marshalled n),
    ("GobEncode", ⟨[], none, fun _ =>
      .returned [.datum (.bytes .blank ((if n < 0 then 3 else 2) :: toBytes n.natAbs)),
        .error none]⟩),
    ("Format", ⟨[strangeSlot "fmt.State", .integer .int32], none, fun _ => emptyReference⟩)]

/-- Writes an integer over a row of bytes, or as much of it as fits. -/
def fill (n : Int) (mark : Mark) (row : List UInt8) : Reply :=
  let bytes := toBytes n.natAbs
  let written := List.replicate (row.length - bytes.length) 0
    ++ bytes.drop (bytes.length - row.length)
  if bytes.length ≤ row.length then
    ⟨.returned [.datum (.bytes mark written)], [(mark, .bytes written)]⟩
  else ⟨.panicked "math/big: buffer too small to fit value", [(mark, .bytes written)]⟩

/-- The methods that write a wide integer to a row of bytes, by name. -/
def writers (n : Int) : List (String × Method) :=
  [("FillBytes", ⟨[bytesSlot], none, fun
      | [.bytes mark row] => fill n mark row
      | _ => emptyReference⟩),
    ("Append", ⟨[bytesSlot, .integer .int], none, fun
      | [.bytes mark row, .integer _ base] =>
        match inBase n base with
        | .error what => .panicked what
        | .ok s => ⟨.returned [.datum (.bytes .blank (row ++ textBytes s))], [(mark, .bytes row)]⟩
      | _ => emptyReference⟩)]

/-- Stores a number in a wide integer and gives that back. -/
def set (mark : Mark) (n : Int) : Reply :=
  ⟨.returned [.datum (.value (.wide mark n))], [(mark, .whole n)]⟩

/-- Stores a number in a wide integer and reports no error. -/
def setQuietly (mark : Mark) (n : Int) : Reply :=
  ⟨.returned [.error none], [(mark, .whole n)]⟩

/-- No wide integer at all. -/
def nothing : Datum :=
  .named "*big.Int" "<nil>"

/-- A method that stores in the wide integer it is called on what `f`
makes of the parameters, or breaks down. -/
def setting (mark : Mark) (slots : List Slot) (f : List Int → Except String Int) : Method :=
  ⟨slots, none, fun params =>
    match params.mapM whole? with
    | none => emptyReference
    | some ns =>
      match f ns with
      | .error what => .panicked what
      | .ok n => set mark n⟩

/-- Sets a wide integer to a function of one other. -/
def settingOne (mark : Mark) (f : Int → Except String Int) : Method :=
  setting mark [slot] fun ns => f (ns.headD 0)

/-- Sets a wide integer to a function of two others. -/
def settingTwo (mark : Mark) (f : Int → Int → Except String Int) : Method :=
  setting mark [slot, slot] fun ns => f (ns.headD 0) (ns.getD 1 0)

/-- Sets a wide integer to a quotient or a remainder. -/
def dividing (mark : Mark) (f : Int → Int → Int) : Method :=
  settingTwo mark fun x y => if y == 0 then .error "division by zero" else .ok (f x y)

/-- Sets a wide integer to a quotient and the third parameter to the
remainder. -/
def splitting (mark : Mark) (quotient remainder : Int → Int → Int) : Method :=
  ⟨[slot, slot, slot], none, fun
    | [.value (.wide _ x), .value (.wide _ y), .value (.wide other _)] =>
      if y == 0 then .panicked "division by zero"
      else ⟨.returned [.datum (.value (.wide mark (quotient x y))),
          .datum (.value (.wide other (remainder x y)))],
        [(other, .whole (remainder x y)), (mark, .whole (quotient x y))]⟩
    | _ => emptyReference⟩

/-- Sets a wide integer to a number that may not exist. -/
def setIfAny (mark : Mark) : Option Int → Reply
  | some n => set mark n
  | none => .returned [.datum nothing]

/-- Sets a wide integer to the greatest common divisor of the last two
parameters, and the first two, if given, to the factors that make it up. -/
def settingDivisor (mark : Mark) : List Datum → Reply
  | [x, y, .value (.wide _ a), .value (.wide _ b)] =>
    let (d, s) := bezout a.natAbs b.natAbs 1 0
    let s : Int := if a == 0 then 0 else if b == 0 then 1 else s
    let t : Int := if b == 0 then 0 else (d - a.natAbs * s) / b
    let factor (p : Datum) (n : Int) : Cells := match p with
      | .value (.wide other _) => [(other, .whole n)]
      | _ => []
    ⟨.returned [.datum (.value (.wide mark d))],
      (mark, .whole d) :: (factor x (if a < 0 then -s else s) ++ factor y t)⟩
  | _ => emptyReference

/-- Sets a wide integer to a bit-by-bit change of another. -/
def settingBit (mark : Mark) : Method :=
  setting mark [slot, .integer .int, .integer .uint] fun
    | [x, i, b] =>
      if i < 0 then .error "negative bit index"
      else if 1 < b then .error "set bit is not 0 or 1"
      else .ok (x + (b - bit x i.toNat) * 2 ^ i.toNat)
    | _ => .ok 0

/-- The failure to read a wide integer from a row of bytes. -/
def unreadable (row : List UInt8) : Returned :=
  let text := "math/big: cannot unmarshal " ++ Text.quote (bytesText row) ++ " into a *big.Int"
  .error (some (.other text, .named "*errors.errorString" text))

/-- Reads the wide integer `mark` that holds `n` from a row of bytes. -/
def readFrom (mark : Mark) (n : Int) (row : List UInt8) : Reply :=
  match scan 0 n (bytesText row).toList with
  | (true, k) => setQuietly mark k
  | (false, k) => ⟨.returned [unreadable row], [(mark, .whole k)]⟩

/-- The methods that set the wide integer `mark` that holds `n`, by name. -/
def setters (mark : Mark) (n : Int) : List (String × Method) :=
  [("Set", settingOne mark .ok),
    ("SetInt64", setting mark [.integer .int64] fun ns => .ok (ns.headD 0)),
    ("SetUint64", setting mark [.integer .uint64] fun ns => .ok (ns.headD 0)),
    ("Neg", settingOne mark fun x => .ok (-x)),
    ("Abs", settingOne mark fun x => .ok x.natAbs),
    ("Not", settingOne mark fun x => .ok (bitNot x)),
    ("Sqrt", settingOne mark fun x =>
      if x < 0 then .error "square root of negative number" else .ok (root x.toNat)),
    ("Add", settingTwo mark fun x y => .ok (x + y)),
    ("Sub", settingTwo mark fun x y => .ok (x - y)),
    ("Mul", settingTwo mark fun x y => .ok (x * y)),
    ("And", settingTwo mark fun x y => .ok (bitAnd x y)),
    ("AndNot", settingTwo mark fun x y => .ok (bitAnd x (bitNot y))),
    ("Or", settingTwo mark fun x y => .ok (bitOr x y)),
    ("Xor", settingTwo mark fun x y => .ok (bitOr x y - bitAnd x y)),
    ("Quo", dividing mark Int.tdiv),
    ("Rem", dividing mark Int.tmod),
    ("Div", dividing mark Int.ediv),
    ("Mod", dividing mark Int.emod),
    ("QuoRem", splitting mark Int.tdiv Int.tmod),
    ("DivMod", splitting mark Int.ediv Int.emod),
    ("Lsh", setting mark [slot, .integer .uint] fun ns =>
      .ok (if ns.headD 0 == 0 then 0 else ns.headD 0 * 2 ^ (ns.getD 1 0).toNat)),
    ("Rsh", setting mark [slot, .integer .uint] fun ns =>
      .ok (ns.headD 0 >>> (ns.getD 1 0).toNat)),
    ("SetBit", settingBit mark),
    ("MulRange", setting mark [.integer .int64, .integer .int64] fun ns =>
      .ok (rangeProduct (ns.headD 0) (ns.getD 1 0))),
    ("Binomial", setting mark [.integer .int64, .integer .int64] fun ns =>
      .ok (binomial (ns.headD 0) (ns.getD 1 0))),
    ("GCD", ⟨[slot, slot, slot, slot], none, settingDivisor mark⟩),
    ("Exp", ⟨[slot, slot, slot], none, fun
      | [.value (.wide _ x), .value (.wide _ y), m] =>
        setIfAny mark (power? x y ((whole? m).getD 0))
      | _ => emptyReference⟩),
    ("ModInverse", ⟨[slot, slot], none, fun
      | [.value (.wide _ g), .value (.wide _ m)] =>
        if g < 0 && m == 0 then .panicked "division by zero" else setIfAny mark (inverse? g m)
      | _ => emptyReference⟩),
    ("ModSqrt", ⟨[slot, slot], none, fun
      | [.value (.wide _ x), .value (.wide _ p)] =>
        if p % 2 == 0 then .panicked ("big: invalid 2nd argument to Int.Jacobi: "
          ++ "need odd integer but got " ++ Decimal.renderInt p)
        else setIfAny mark (rootMod? x p)
      | _ => emptyReference⟩),
    ("Rand", ⟨[closedSlot "*rand.Rand", slot], none, fun
      | [_, .value (.wide _ bound)] =>
        if bound ≤ 0 then set mark 0
        else ⟨emptyReference.ending, [(mark, .whole n.natAbs)]⟩
      | _ => emptyReference⟩),
    ("SetBits", ⟨[wordsSlot], none, fun
      | [.array _ words] => set mark (ofWords words)
      | _ => emptyReference⟩),
    ("SetBytes", ⟨[bytesSlot], none, fun
      | [.bytes _ row] => set mark (ofBytes row)
      | _ => emptyReference⟩),
    ("SetString", ⟨[.text, .integer .int], none, fun
      | [.text s, .integer _ base] =>
        if base < 0 || base == 1 || 62 < base then
          .panicked ("invalid number base " ++ Decimal.renderInt base)
        else match scan base.toNat n s.toList with
          | (true, k) =>
            ⟨.returned [.datum (.value (.wide mark k)), .datum (.flag true)], [(mark, .whole k)]⟩
          | (false, k) =>
            ⟨.returned [.datum nothing, .datum (.flag false)], [(mark, .whole k)]⟩
      | _ => emptyReference⟩),
    ("Scan", ⟨[strangeSlot "fmt.ScanState", .integer .int32], none, fun _ => emptyReference⟩),
    ("UnmarshalText", ⟨[bytesSlot], none, fun
      | [.bytes _ row] => readFrom mark n row
      | _ => emptyReference⟩),
    ("UnmarshalJSON", ⟨[bytesSlot], none, fun
      | [.bytes _ row] =>
        if bytesText row == "null" then .returned [.error none] else readFrom mark n row
      | _ => emptyReference⟩),
    ("GobDecode", ⟨[bytesSlot], none, fun
      | [.bytes _ []] => setQuietly mark 0
      | [.bytes _ (version :: row)] =>
        if version.toNat / 2 == 1 then
          setQuietly mark (if version.toNat % 2 == 1 then -(ofBytes row : Int) else ofBytes row)
        else
          let text := "Int.GobDecode: encoding version " ++ Nat.repr (version.toNat / 2)
            ++ " not supported"
          .returned [.error (some (.other text, .named "*errors.errorString" text))]
      | _ => emptyReference⟩)]

/-- The methods of the wide integer `mark` that holds `n`, by name. -/
def method? (mark : Mark) (n : Int) (name : String) : Option Method :=
  (readers n ++ writers n ++ setters mark n).lookup name

end Wide

end LispShell
