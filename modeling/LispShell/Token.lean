/-
Tokens and the text they come from.

Tokens are delimited by blanks and parentheses only, so `+1` is one
token. A parenthesis is a token of its own. A double quote ends the token
before it and starts a string literal, which runs to the next double
quote, both quotes included; what follows the closing quote starts a new
token.

The scan walks once over the bytes of a text with a small state: either
inside a plain word, possibly empty, or inside a string literal. What
delimits tokens is ASCII, so no letter is ever cut.
-/
import LispShell.Fault

namespace LispShell

/-- A token is its text. -/
abbrev Token := String

namespace Token

/-- Whether the byte only delimits tokens. -/
def isDelimiter (c : Char) : Bool :=
  c == ' ' || c == '\t' || c == '\n' || c == '\r' || c == '\x0b' || c == '\x0c'

/-- What the scan is inside of, with the bytes since its start, last
first. -/
inductive Mode where
  | word (rev : List Char)
  | quoted (rev : List Char)

/-- The token that a finished word gives: none if it is empty. -/
def flush (rev : List Char) : List Token :=
  if rev.isEmpty then [] else [String.ofList rev.reverse]

/-- The tokens of a list of bytes, from a given state. -/
def scan : Mode → List Char → Except Fault (List Token)
  | .word rev, [] => .ok (flush rev)
  | .quoted _, [] => .error .quoteMismatch
  | .quoted rev, c :: cs =>
    if c == '"' then (scan (.word []) cs).map (String.ofList (c :: rev).reverse :: ·)
    else scan (.quoted (c :: rev)) cs
  | .word rev, c :: cs =>
    if isDelimiter c then (scan (.word []) cs).map (flush rev ++ ·)
    else if c == '(' then (scan (.word []) cs).map (flush rev ++ "(" :: ·)
    else if c == ')' then (scan (.word []) cs).map (flush rev ++ ")" :: ·)
    else if c == '"' then (scan (.quoted [c]) cs).map (flush rev ++ ·)
    else scan (.word (c :: rev)) cs

/-- The tokens of a text. -/
def lex (source : String) : Except Fault (List Token) :=
  scan (.word []) source.toList

end Token

end LispShell
