/-
A place in a document's text.

A cursor holds the characters that are left and where the first of them
stands. Lines are counted from zero. A carriage return together with a
line feed is one line break; every break but the two Unicode separators
reads as a line feed.
-/
namespace LispShell.Yaml

/-- Where a character stands. -/
structure Position where
  index : Nat
  line : Nat
  column : Nat

/-- The characters that are left, and where they start. -/
structure Cursor where
  rest : List Char
  pos : Position

/-- What is wrong with a document: whether its characters or its structure,
the line where the thing started that is wrong, the line where that
showed, and the message. -/
structure Problem where
  lexical : Bool
  started : Nat
  showed : Nat
  text : String

/-- A problem's message, with its line if that is not the first. -/
def Problem.message (p : Problem) : String :=
  let line := if p.started != 0 then p.started else p.showed
  if line == 0 then p.text
  else "line " ++ Nat.repr (if p.lexical then line + 1 else line) ++ ": " ++ p.text

/-- The problem of a character that no document may hold. -/
def Problem.badCharacter : Problem :=
  ⟨true, 0, 0, "control characters are not allowed"⟩

/-- The problem of bytes that spell no character. -/
def Problem.badByte : Problem :=
  ⟨true, 0, 0, "invalid leading UTF-8 octet"⟩

/-- Whether a character breaks a line. -/
def isBreak (c : Char) : Bool :=
  c == '\n' || c == '\r' || c.toNat == 0x85 || c.toNat == 0x2028 || c.toNat == 0x2029

/-- Whether a character is a space or a tab. -/
def isSpace (c : Char) : Bool :=
  c == ' ' || c == '\t'

/-- Whether a line ends there, or the text. -/
def endsLine : Option Char → Bool
  | some c => isBreak c
  | none => true

/-- Whether a word ends there. -/
def endsWord : Option Char → Bool
  | some c => isSpace c || isBreak c
  | none => true

namespace Cursor

/-- The cursor at the start of a text. -/
def start (cs : List Char) : Cursor :=
  ⟨cs, ⟨0, 0, 0⟩⟩

/-- The character `n` places ahead. -/
def peek (c : Cursor) (n : Nat) : Option Char :=
  c.rest[n]?

/-- The next character. -/
def head (c : Cursor) : Option Char :=
  c.rest.head?

/-- Past one character of the same line. -/
def next (c : Cursor) : Cursor :=
  ⟨c.rest.tail, { c.pos with index := c.pos.index + 1, column := c.pos.column + 1 }⟩

/-- Past `n` characters of the same line. -/
def skip (c : Cursor) (n : Nat) : Cursor :=
  ⟨c.rest.drop n, { c.pos with index := c.pos.index + n, column := c.pos.column + n }⟩

/-- How many characters the line break at the cursor has. -/
def breakLength (c : Cursor) : Nat :=
  match c.rest with
  | '\r' :: '\n' :: _ => 2
  | x :: _ => if isBreak x then 1 else 0
  | [] => 0

/-- Past a line break. -/
def nextLine (c : Cursor) : Cursor :=
  let n := c.breakLength
  if n == 0 then c else ⟨c.rest.drop n, ⟨c.pos.index + n, c.pos.line + 1, 0⟩⟩

/-- What the line break at the cursor reads as. -/
def breakText (c : Cursor) : List Char :=
  match c.head with
  | some x =>
    if !isBreak x then []
    else if x.toNat == 0x2028 || x.toNat == 0x2029 then [x] else ['\n']
  | none => []

/-- Past the characters of the line for which `p` holds. -/
def skipWhile (p : Char → Bool) (c : Cursor) : Cursor :=
  c.skip (c.rest.takeWhile p).length

/-- Whether a document mark stands there: three of the character at the
start of a line, with nothing after them. -/
def atMark (c : Cursor) (x : Char) : Bool :=
  c.pos.column == 0 && c.rest.take 3 == [x, x, x] && endsWord (c.peek 3)

/-- Whether a document starts or ends there. -/
def atDocumentMark (c : Cursor) : Bool :=
  c.atMark '-' || c.atMark '.'

/-- A problem with something that started at a line. -/
def problem (c : Cursor) (started : Nat) (text : String) : Problem :=
  ⟨true, started, c.pos.line, text⟩

end Cursor

end LispShell.Yaml
