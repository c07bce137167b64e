/-
Tags, and the directives in front of a document.

A tag is `!<uri>`, or a handle and a suffix: `!suffix`, `!!suffix` or
`!name!suffix`. In a URI `%` and two hexadecimal digits stand for a byte;
such bytes come in groups of the length that the first one tells. A
directive tells the version of the format (`%YAML 1.1`), or what a handle
stands for (`%TAG !name! uri`).
-/
import LispShell.Decimal.Numeral
import LispShell.Text.Letter
import LispShell.Yaml.Cursor

namespace LispShell.Yaml

/-- A directive. -/
inductive Directive where
  | version (major minor : Nat)
  /-- What a handle stands for. -/
  | handle (name front : String)

/-- The characters of a name. -/
def isNameChar (c : Char) : Bool :=
  c.isAlphanum || c == '_' || c == '-'

-- ==================================================================== URIs

/-- The characters of a URI. -/
def isUriChar (c : Char) : Bool :=
  isNameChar c || ";/?:@&=+$,.!~*'()[]%".toList.contains c

/-- Reads an escaped byte. -/
def readOctet (started : Nat) (c : Cursor) : Except Problem (Nat × Cursor) :=
  let missing := .error (c.problem started "did not find URI escaped octet")
  match c.rest with
  | '%' :: a :: b :: _ =>
    match Decimal.hexDigit? a, Decimal.hexDigit? b with
    | some x, some y => .ok (16 * x + y, c.skip 3)
    | _, _ => missing
  | _ => missing

/-- How many bytes follow a first byte, if it can be one. -/
def trailCount? (n : Nat) : Option Nat :=
  if n < 0x80 then some 0
  else if n < 0xc0 then none
  else if n < 0xe0 then some 1
  else if n < 0xf0 then some 2
  else if n < 0xf8 then some 3
  else none

/-- Reads escaped bytes that follow a first one. -/
def readTrails (started : Nat) : Nat → Cursor → Except Problem (List Char × Cursor)
  | 0, c => .ok ([], c)
  | count + 1, c => do
    let (n, after) ← readOctet started c
    if n < 0x80 || 0xc0 ≤ n then
      .error (c.problem started "found an incorrect trailing UTF-8 octet")
    let (bytes, after) ← readTrails started count after
    return (Text.byte n :: bytes, after)

/-- Reads a group of escaped bytes. -/
def readOctets (started : Nat) (c : Cursor) : Except Problem (List Char × Cursor) := do
  let (n, after) ← readOctet started c
  match trailCount? n with
  | none => .error (c.problem started "found an incorrect leading UTF-8 octet")
  | some count => do
    let (bytes, after) ← readTrails started count after
    return (Text.byte n :: bytes, after)

/-- Reads the bytes of a URI, which may be none. -/
def readUriBytes (started : Nat) : Nat → Cursor → Except Problem (List Char × Cursor)
  | 0, c => .ok ([], c)
  | fuel + 1, c =>
    match c.head with
    | none => .ok ([], c)
    | some x =>
      if x == '%' then do
        let (bytes, c) ← readOctets started c
        let (more, c) ← readUriBytes started fuel c
        return (bytes ++ more, c)
      else if isUriChar x then do
        let (more, c) ← readUriBytes started fuel c.next
        return (x :: more, c)
      else .ok ([], c)

/-- Reads a URI that goes on after `front`. -/
def readUri (started : Nat) (front : List Char) (c : Cursor) :
    Except Problem (String × Cursor) := do
  let (bytes, after) ← readUriBytes started (c.rest.length + 1) c
  return (String.ofList (front ++ bytes), after)

/-- Reads a URI of at least one character. -/
def readWholeUri (started : Nat) (c : Cursor) : Except Problem (String × Cursor) := do
  if !(c.head.map isUriChar).getD false then
    .error (c.problem started "did not find expected tag URI")
  readUri started [] c

-- ==================================================================== tags

/-- Reads `!`, a name and perhaps another `!`. -/
def readHandle (started : Nat) (c : Cursor) : Except Problem (List Char × Cursor) :=
  if c.head != some '!' then .error (c.problem started "did not find expected '!'")
  else
    let name := c.next.rest.takeWhile isNameChar
    let after := c.skip (1 + name.length)
    if after.head == some '!' then .ok ('!' :: name ++ ['!'], after.next)
    else .ok ('!' :: name, after)

/-- Whether `!name` with or without another `!` is a handle. -/
def isHandle (cs : List Char) : Bool :=
  1 < cs.length && cs.getLast? == some '!'

/-- Reads a tag: its handle, if it has one, and the rest. -/
def readTag (started : Nat) (c : Cursor) : Except Problem ((String × String) × Cursor) := do
  let (tag, after) ←
    if c.peek 1 == some '<' then do
      let (uri, after) ← readWholeUri started (c.skip 2)
      if after.head != some '>' then
        .error (after.problem started "did not find the expected '>'")
      pure (("", uri), after.next)
    else do
      let (handle, after) ← readHandle started c
      if isHandle handle then do
        let (suffix, after) ← readWholeUri started after
        pure ((String.ofList handle, suffix), after)
      else do
        let (suffix, after) ← readUri started handle.tail after
        pure (if suffix == "" then ("", "!") else ("!", suffix), after)
  if !endsWord after.head then
    .error (after.problem started "did not find expected whitespace or line break")
  return (tag, after)

-- ============================================================== directives

/-- Reads a part of a version: one or two digits. -/
def readVersionPart (started : Nat) (c : Cursor) : Except Problem (Nat × Cursor) :=
  let digits := c.rest.takeWhile Char.isDigit
  if 2 < digits.length then .error (c.problem started "found extremely long version number")
  else match Decimal.nat? digits with
    | some n => .ok (n, c.skip digits.length)
    | none => .error (c.problem started "did not find expected version number")

/-- Reads a version. -/
def readVersion (started : Nat) (c : Cursor) : Except Problem (Directive × Cursor) := do
  let (major, c) ← readVersionPart started (c.skipWhile isSpace)
  if c.head != some '.' then
    .error (c.problem started "did not find expected digit or '.' character")
  let (minor, c) ← readVersionPart started c.next
  return (.version major minor, c)

/-- Reads a handle and what it stands for. -/
def readMeaning (started : Nat) (c : Cursor) : Except Problem (Directive × Cursor) := do
  let (handle, c) ← readHandle started (c.skipWhile isSpace)
  if handle != ['!'] && !isHandle handle then
    .error (c.problem started "did not find expected '!'")
  if !(c.head.map isSpace).getD false then
    .error (c.problem started "did not find expected whitespace")
  let (front, c) ← readWholeUri started (c.skipWhile isSpace)
  if !endsWord c.head then
    .error (c.problem started "did not find expected whitespace or line break")
  return (.handle (String.ofList handle) front, c)

/-- Reads a directive, from its `%` to the start of the next line. -/
def readDirective (c : Cursor) : Except Problem (Directive × Cursor) := do
  let started := c.pos.line
  let name := c.next.rest.takeWhile isNameChar
  let c := c.skip (1 + name.length)
  if name.isEmpty then .error (c.problem started "could not find expected directive name")
  if !endsWord c.head then .error (c.problem started "found unexpected non-alphabetical character")
  let (directive, c) ← match String.ofList name with
    | "YAML" => readVersion started c
    | "TAG" => readMeaning started c
    | _ => .error (c.problem started "found unknown directive name")
  let c := c.skipWhile isSpace
  let c := if c.head == some '#' then c.skipWhile (!isBreak ·) else c
  if !endsLine c.head then
    .error (c.problem started "did not find expected comment or line break")
  return (directive, c.nextLine)

end LispShell.Yaml
