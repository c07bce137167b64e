/-
Scalars of a document, from the characters that write them.

A plain scalar stands without quotes and ends where something else could
start. A quoted one may use escapes (double quotes) or a doubled quote
(single quotes). In all three a line break inside reads as a space, and
empty lines after it as line feeds. A block scalar starts after `|`,
which keeps line breaks, or `>`, which folds them, on lines indented
deeper than its surroundings; a `-` drops the line breaks at its end and a
`+` keeps all of them.
-/
import LispShell.Decimal.Numeral
import LispShell.Yaml.Cursor

namespace LispShell.Yaml

/-- How a scalar was written. -/
inductive Style where
  | plain
  | single
  | double
  | block
  deriving DecidableEq

/-- A scalar that was read, whether the text around it has just started a
new line, and where it ended. -/
structure Read where
  text : List Char
  newLine : Bool
  cursor : Cursor

/-- Blanks and line breaks between words of a scalar. -/
structure Gap where
  /-- Blanks on the line of the word before. -/
  blanks : List Char
  /-- The first line break. -/
  first : List Char
  /-- Further line breaks. -/
  more : List Char
  /-- Whether there was a line break. -/
  broken : Bool

def Gap.none : Gap := ⟨[], [], [], false⟩

/-- What a gap reads as: one line break as a space, more as themselves but
for the first. -/
def Gap.text (g : Gap) : List Char :=
  if g.broken then
    if g.first.head? == some '\n' then (if g.more.isEmpty then [' '] else g.more)
    else g.first ++ g.more
  else g.blanks

/-- Reads blanks and line breaks. A tab at the start of a line that is
less deep than `tabsFrom` is refused. -/
def readGap (started tabsFrom : Nat) : Nat → Gap → Cursor → Except Problem (Gap × Cursor)
  | 0, g, c => .ok (g, c)
  | fuel + 1, g, c =>
    match c.head with
    | none => .ok (g, c)
    | some x =>
      if isSpace x then
        if g.broken && c.pos.column < tabsFrom && x == '\t' then
          .error (c.problem started "found a tab character that violates indentation")
        else readGap started tabsFrom fuel
          (if g.broken then g else { g with blanks := g.blanks ++ [x] }) c.next
      else if isBreak x then
        let g := if g.broken then { g with more := g.more ++ c.breakText }
          else { g with blanks := [], first := c.breakText, broken := true }
        readGap started tabsFrom fuel g c.nextLine
      else .ok (g, c)

-- ================================================================== plain

/-- Whether a plain scalar ends before a character. -/
def endsPlain (inFlow : Bool) (c : Cursor) : Bool :=
  match c.head with
  | none => true
  | some x =>
    isSpace x || isBreak x || (x == ':' && endsWord (c.peek 1))
      || (inFlow && (x == ',' || x == '?' || x == '[' || x == ']' || x == '\x7b' || x == '\x7d'))

/-- Reads the characters of a plain scalar up to its next gap, in reverse
in front of `acc`. -/
def readPlainWord (inFlow : Bool) : Nat → List Char → Cursor → List Char × Cursor
  | 0, acc, c => (acc, c)
  | fuel + 1, acc, c =>
    if endsPlain inFlow c then (acc, c)
    else readPlainWord inFlow fuel ((c.head.getD ' ') :: acc) c.next

/-- Reads a plain scalar. `rev` holds what was read, last first, and `gap`
what stands between it and the next word. -/
def readPlain (inFlow : Bool) (indent started : Nat) :
    Nat → List Char → Gap → Cursor → Except Problem Read
  | 0, rev, gap, c => .ok ⟨rev.reverse, gap.broken, c⟩
  | fuel + 1, rev, gap, c =>
    if c.atDocumentMark || c.head == some '#' then .ok ⟨rev.reverse, gap.broken, c⟩
    else
      let (word, after) := readPlainWord inFlow (c.rest.length + 1) [] c
      let (rev, gap) := if word.isEmpty then (rev, gap)
        else (word ++ gap.text.reverse ++ rev, Gap.none)
      match after.head with
      | none => .ok ⟨rev.reverse, gap.broken, after⟩
      | some x =>
        if !(isSpace x || isBreak x) then .ok ⟨rev.reverse, gap.broken, after⟩
        else do
          let (gap, c) ← readGap started indent (after.rest.length + 1) gap after
          if !inFlow && c.pos.column < indent then .ok ⟨rev.reverse, gap.broken, c⟩
          else readPlain inFlow indent started fuel rev gap c

-- ================================================================= quoted

/-- The character that a one-letter escape stands for. -/
def escaped? : Char → Option Char
  | '0' => some '\x00'
  | 'a' => some '\x07'
  | 'b' => some '\x08'
  | 't' | '\t' => some '\t'
  | 'n' => some '\n'
  | 'v' => some '\x0b'
  | 'f' => some '\x0c'
  | 'r' => some '\r'
  | 'e' => some '\x1b'
  | ' ' => some ' '
  | '"' => some '"'
  | '\'' => some '\''
  | '\\' => some '\\'
  | 'N' => some '\u0085'
  | '_' => some '\u00a0'
  | 'L' => some '\u2028'
  | 'P' => some '\u2029'
  | _ => none

/-- How many hexadecimal digits follow an escape letter. -/
def escapeWidth? : Char → Option Nat
  | 'x' => some 2
  | 'u' => some 4
  | 'U' => some 8
  | _ => none

/-- The number that hexadecimal digits spell. -/
def hexValue? (cs : List Char) : Option Nat :=
  cs.foldl (fun n c => match n, Decimal.hexDigit? c with
    | some n, some d => some (16 * n + d)
    | _, _ => none) (some 0)

/-- Reads an escape, from its backslash on. -/
def readEscape (started : Nat) (c : Cursor) : Except Problem (Char × Cursor) :=
  let unknown := .error (c.problem started "found unknown escape character")
  match c.peek 1 with
  | none => unknown
  | some x =>
    match escaped? x, escapeWidth? x with
    | some y, _ => .ok (y, c.skip 2)
    | none, some width =>
      let digits := (c.rest.drop 2).take width
      match hexValue? digits with
      | some n =>
        if digits.length < width then
          .error (c.problem started "did not find expected hexdecimal number")
        else if (0xd800 ≤ n && n ≤ 0xdfff) || 0x10ffff < n then
          .error (c.problem started "found invalid Unicode character escape code")
        else .ok (Char.ofNat n, c.skip (2 + width))
      | none => .error (c.problem started "did not find expected hexdecimal number")
    | none, none => unknown

/-- Reads a quoted scalar, from after its first quote. `rev` holds what was
read, last first. -/
def readQuoted (single : Bool) (started : Nat) :
    Nat → List Char → Cursor → Except Problem Read
  | 0, rev, c => .ok ⟨rev.reverse, false, c⟩
  | fuel + 1, rev, c =>
    if c.atDocumentMark then .error (c.problem started "found unexpected document indicator")
    else match c.head with
      | none => .error (c.problem started "found unexpected end of stream")
      | some x =>
        if isSpace x || isBreak x then do
          let (gap, c) ← readGap started 0 (c.rest.length + 1) Gap.none c
          readQuoted single started fuel (gap.text.reverse ++ rev) c
        else if single && x == '\'' then
          if c.peek 1 == some '\'' then readQuoted single started fuel ('\'' :: rev) (c.skip 2)
          else .ok ⟨rev.reverse, false, c.next⟩
        else if !single && x == '"' then .ok ⟨rev.reverse, false, c.next⟩
        else if !single && x == '\\' then
          match c.peek 1 with
          | some y =>
            if isBreak y then do
              let (gap, c) ← readGap started 0 (c.rest.length + 1)
                ⟨[], [], [], true⟩ c.next.nextLine
              readQuoted single started fuel (gap.text.reverse ++ rev) c
            else do
              let (y, c) ← readEscape started c
              readQuoted single started fuel (y :: rev) c
          | none => do
            let (y, c) ← readEscape started c
            readQuoted single started fuel (y :: rev) c
        else readQuoted single started fuel (x :: rev) c.next

-- ================================================================== block

/-- What happens to the line breaks at the end of a block scalar. -/
inductive Chomping where
  | strip
  | clip
  | keep

/-- The marks after `|` or `>`: chomping and indentation, in either
order. -/
def readBlockHeader (started : Nat) (c : Cursor) : Except Problem (Chomping × Nat × Cursor) :=
  let chomping (c : Cursor) : Option (Chomping × Cursor) := match c.head with
    | some '+' => some (.keep, c.next)
    | some '-' => some (.strip, c.next)
    | _ => none
  let depth (c : Cursor) : Except Problem (Nat × Cursor) :=
    match c.head.bind Decimal.digit? with
    | some 0 => .error (c.problem started "found an indentation indicator equal to 0")
    | some n => .ok (n, c.next)
    | none => .ok (0, c)
  match chomping c with
  | some (ch, c) => do
    let (n, c) ← depth c
    return (ch, n, c)
  | none => do
    let (n, c) ← depth c
    match (if n == 0 then none else chomping c) with
    | some (ch, c) => return (ch, n, c)
    | none => return (.clip, n, c)

/-- Passes over indentation and empty lines before a line of a block
scalar. With `indent = 0` the indentation is still to be found. Answers
the deepest column met, the line breaks, and the place. -/
def skipIndentation (indent started : Nat) :
    Nat → Nat → List Char → Cursor → Except Problem (Nat × List Char × Cursor)
  | 0, deepest, breaks, c => .ok (deepest, breaks, c)
  | fuel + 1, deepest, breaks, c =>
    let spaces := (c.rest.takeWhile (· == ' ')).length
    let c := c.skip (if indent == 0 then spaces else min spaces (indent - c.pos.column))
    let deepest := max deepest c.pos.column
    if (indent == 0 || c.pos.column < indent) && c.head == some '\t' then
      .error (c.problem started "found a tab character where an indentation space is expected")
    else match c.head with
      | none => .ok (deepest, breaks, c)
      | some x =>
        if isBreak x then
          skipIndentation indent started fuel deepest (breaks ++ c.breakText) c.nextLine
        else .ok (deepest, breaks, c)

/-- The lines of a block scalar. `rev` holds what was read, last first,
`pending` the line break after it, `breaks` the empty lines after that,
and `indented` whether the line before started with a blank. -/
def readBlockLines (literal : Bool) (indent started : Nat) (chomping : Chomping) :
    Nat → List Char → List Char → List Char → Bool → Cursor → Except Problem Read
  | 0, rev, _, _, _, c => .ok ⟨rev.reverse, false, c⟩
  | fuel + 1, rev, pending, breaks, indented, c =>
    if c.pos.column == indent && c.head.isSome then do
      let blank := (c.head.map isSpace).getD false
      let joint :=
        if !literal && !indented && !blank && pending.head? == some '\n' then
          (if breaks.isEmpty then [' '] else [])
        else pending
      let line := c.rest.takeWhile (!isBreak ·)
      let after := c.skip line.length
      let (_, more, next) ← skipIndentation indent started (after.rest.length + 1) 0 []
        after.nextLine
      readBlockLines literal indent started chomping fuel
        (line.reverse ++ breaks.reverse ++ joint.reverse ++ rev) after.breakText more blank next
    else
      let tail := match chomping with
        | .strip => []
        | .clip => pending
        | .keep => pending ++ breaks
      .ok ⟨rev.reverse ++ tail, false, c⟩

/-- Reads a block scalar, from after its `|` or `>`. `outer` is the
indentation of what it stands in. -/
def readBlock (literal : Bool) (outer : Int) (started : Nat) (c : Cursor) :
    Except Problem Read := do
  let (chomping, depth, c) ← readBlockHeader started c
  let c := c.skipWhile isSpace
  let c := if c.head == some '#' then c.skipWhile (!isBreak ·) else c
  if !endsLine c.head then
    .error (c.problem started "did not find expected comment or line break")
  let c := c.nextLine
  let given := if depth == 0 then 0 else (max outer 0).toNat + depth
  let (deepest, breaks, c) ← skipIndentation given started (c.rest.length + 1) 0 [] c
  let indent := if given == 0 then max (max deepest (outer + 1).toNat) 1 else given
  readBlockLines literal indent started chomping (c.rest.length + 1) [] [] breaks false c

end LispShell.Yaml
