/-
Expressions: what is read and what is evaluated.

A list or a wide integer carries a mark of type `μ`. What the reader
makes has no marks (`μ = Unit`). Before a form is evaluated every list and
every wide integer in it is stamped with a `Mark` of its own (`stamp`),
because quoted they are values with an identity: the same list is equal to
itself even where its items are not equal to themselves, and a wide
integer can be set to another one, for everyone who holds it.

A symbol whose first character is a double quote is a string literal that
still has its quotes.
-/
import LispShell.Decimal.Layout
import LispShell.Decimal.Numeral
import LispShell.Text.Search

namespace LispShell

/-- The identity of a list, a sequence, a wide integer, a row of bytes or a
module: blank until it is made, then the session that made it and the how
manieth it was; for what was imported, the import table and its name
there; or the number the host gave it. -/
inductive Mark where
  | blank
  | made (session serial : Nat)
  | imported (table : Nat) (name : String)
  | host (number : Nat)
  deriving DecidableEq

/-- Whether two marks are the identity of one and the same thing. -/
def Mark.same (a b : Mark) : Bool :=
  a != .blank && a == b

/-- An expression whose lists and wide integers carry marks of type `μ`. -/
inductive Expr (μ : Type) where
  /-- An integer that fits 64 bits. -/
  | int (n : Int64)
  /-- An integer literal that does not. -/
  | wide (mark : μ) (n : Int)
  | float (x : Float)
  /-- Literal text. The reader makes none; evaluating a string literal
  does. -/
  | text (s : String)
  | symbol (name : String)
  | list (mark : μ) (items : List (Expr μ))
  deriving Inhabited

/-- An expression as it is read. -/
abbrev Form := Expr Unit

/-- An expression as it is evaluated. -/
abbrev Code := Expr Mark

/-- Whether a symbol is a string literal. -/
def isLiteral (name : String) : Bool :=
  name.toList.head? == some '"'

/-- The text of a string literal: all but its first and last byte. -/
def unquote (name : String) : String :=
  match name.toList with
  | [] | [_] => ""
  | _ :: rest => String.ofList rest.dropLast

namespace Expr

variable {μ : Type}

mutual

/-- The text of an expression. -/
def render : Expr μ → String
  | .int n => Decimal.renderInt n.toInt
  | .wide _ n => Decimal.renderInt n
  | .float x => Decimal.renderFloat x
  | .text s => s
  | .symbol name => name
  | .list _ items => "(" ++ Text.join " " (renderAll items) ++ ")"

/-- The texts of expressions. -/
def renderAll : List (Expr μ) → List String
  | [] => []
  | e :: rest => e.render :: renderAll rest

end

/-- What a token that spells no integer stands for: a float if it spells
one, else a symbol. -/
def floatOrSymbol (token : String) : Form :=
  match Decimal.float? token.toList with
  | some x => .float x
  | none => .symbol token

/-- What a token that is no parenthesis stands for: an integer if it
spells one, else a float, else a symbol. Digits past 64 bits may have
anything after them, so such a token is read once more, as a whole. -/
def ofToken (token : String) : Form :=
  match Decimal.narrowInt token.toList with
  | .ok n => .int n
  | .error .outOfRange =>
    match Decimal.int? token.toList with
    | some z => .wide () z
    | none => floatOrSymbol token
  | .error .malformed => floatOrSymbol token

mutual

/-- Gives every list and every wide integer of an expression a mark of its
own, counting on from `serial`; answers the next free number too. -/
def stamp (session serial : Nat) : Form → Code × Nat
  | .int n => (.int n, serial)
  | .wide _ n => (.wide (.made session serial) n, serial + 1)
  | .float x => (.float x, serial)
  | .text s => (.text s, serial)
  | .symbol name => (.symbol name, serial)
  | .list _ items =>
    let (items, next) := stampAll session (serial + 1) items
    (.list (.made session serial) items, next)

/-- Stamps expressions from left to right. -/
def stampAll (session serial : Nat) : List Form → List Code × Nat
  | [] => ([], serial)
  | e :: rest =>
    let (e, next) := stamp session serial e
    let (rest, last) := stampAll session next rest
    (e :: rest, last)

end

end Expr

end LispShell
