/-
From tokens to expressions.

`Reader.read` consumes one expression from the front of a list of tokens.
It keeps the lists that are still open on a stack, each with the items
read so far, last first. Every call consumes at least one token if there
is one, also when it fails (`read_length_lt`), so reading on after a
failure comes to an end.

`Reader.forms` reads until no token is left and keeps going after
failures. `Reader.readAll` gives up at the first failure.
-/
import LispShell.Expr
import LispShell.Token

namespace LispShell.Reader

/-- The lists that are open, innermost first, with their items, last
first. -/
abbrev Stack := List (List Form)

/-- One expression from the front of the tokens, inside the open lists of
the stack; with it what is left of the tokens. -/
def readWithin : Stack → List Token → Except Fault Form × List Token
  | [], [] => (.error .unexpectedEnd, [])
  | _ :: _, [] => (.error .missingClose, [])
  | stack, token :: rest =>
    if token == "(" then readWithin ([] :: stack) rest
    else if token == ")" then
      match stack with
      | [] => (.error .unexpectedClose, rest)
      | [items] => (.ok (.list () items.reverse), rest)
      | items :: outer :: stack => readWithin ((.list () items.reverse :: outer) :: stack) rest
    else
      match stack with
      | [] => (.ok (.ofToken token), rest)
      | items :: stack => readWithin ((.ofToken token :: items) :: stack) rest

/-- Consumes one expression from the front of the tokens. -/
def read (tokens : List Token) : Except Fault Form × List Token :=
  readWithin [] tokens

theorem readWithin_length_le (stack : Stack) (tokens : List Token) :
    (readWithin stack tokens).2.length ≤ tokens.length - 1 := by
  induction tokens generalizing stack with
  | nil => cases stack <;> simp [readWithin]
  | cons token rest ih =>
    have h : ∀ s, (readWithin s rest).2.length ≤ rest.length := fun s =>
      Nat.le_trans (ih s) (Nat.sub_le _ _)
    unfold readWithin
    repeat' split
    all_goals simp_all

/-- Reading consumes a token if there is one. -/
theorem read_length_lt (token : Token) (rest : List Token) :
    (read (token :: rest)).2.length < rest.length + 1 := by
  have h := readWithin_length_le [] (token :: rest)
  simp only [read, List.length_cons] at *
  omega

/-- Reads until no token is left, going on after failures; each outcome
with the tokens left after it. -/
def readEach (tokens : List Token) : List (Except Fault Form × List Token) :=
  match tokens with
  | [] => []
  | token :: rest =>
    have := read_length_lt token rest
    let step := read (token :: rest)
    step :: readEach step.2
termination_by tokens.length

/-- The outcomes of reading until no token is left. -/
def forms (tokens : List Token) : List (Except Fault Form) :=
  (readEach tokens).map (·.1)

/-- All expressions, or the first failure. -/
def sequence : List (Except Fault Form) → Except Fault (List Form)
  | [] => .ok []
  | .error e :: _ => .error e
  | .ok e :: rest => (sequence rest).map (e :: ·)

/-- Every expression of a text, or the first failure. -/
def readAll (source : String) : Except Fault (List Form) :=
  match Token.lex source with
  | .error e => .error e
  | .ok tokens => sequence (forms tokens)

/-- The first expression of a text. -/
def readFirst (source : String) : Except Fault Form :=
  match Token.lex source with
  | .error e => .error e
  | .ok tokens => (read tokens).1

end LispShell.Reader
