/-
The tokens of a document.

A block collection has no brackets, so its start and end are found from
the indentation: a deeper line starts one, a shallower line ends those
that are deeper. That something is a key shows only at the `:` after it,
so a place where a key may start is remembered, and the key mark is put
in there when the `:` comes. A key has to stand on one line, and must be
one if it stands exactly at the indentation of a mapping.

The scan runs to the end of the text, or up to a problem (`Stream`). A
token is not given out before the two after it are known, nor while it may
still turn out to start a key, so a problem takes back the tokens that it
comes too early for. Only an empty pair of brackets does not wait for a
`:`; a key mark that comes too late for it stands after the tokens so far.

A text is looked at in windows of some hundred bytes. A character that is
not allowed is a problem only to a scan that comes to its window.
-/
import LispShell.Yaml.Comment
import LispShell.Yaml.Directive
import LispShell.Yaml.Scalar

namespace LispShell.Yaml

/-- What a token is. -/
inductive Kind where
  | streamEnd
  | directive (d : Directive)
  | documentStart
  | documentEnd
  | sequenceStart
  | mappingStart
  | blockEnd
  | openSequence
  | closeSequence
  | openMapping
  | closeMapping
  | entry
  | comma
  | key
  | value
  | reference (name : String)
  | anchor (name : String)
  | tag (handle suffix : String)
  | scalar (text : String) (style : Style)

/-- A token and the line it starts at. -/
structure Token where
  kind : Kind
  line : Nat

/-- A place where a key may have started. -/
structure PossibleKey where
  required : Bool
  /-- How many tokens come before it. -/
  number : Nat
  pos : Position
  /-- Whether its token waits for the `:`. -/
  held : Bool

/-- What is known inside an open bracket, or outside of all. -/
structure Level where
  /-- The place where a key may have started. -/
  key : Option PossibleKey
  /-- How many tokens come before the last such place, or before the
  bracket. -/
  number : Nat

/-- The state of a scan. -/
structure Scan where
  cursor : Cursor
  /-- How many brackets are open. -/
  flow : Nat
  /-- The column of the innermost block collection, -1 outside of all. -/
  indent : Int
  indents : List Int
  /-- Whether a key may start here. -/
  keyAllowed : Bool
  /-- The open brackets, innermost first, and the outside. -/
  levels : List Level
  /-- Whether a comment after the last token does not belong to it, since the
  token reaches into a new line or is a mark that takes none. -/
  bare : Bool
  /-- How many characters the first window has if it starts with a mark of
  the byte order, else zero. -/
  marked : Nat
  /-- The tokens so far, last first. -/
  rev : List Token

/-- The most brackets, or block collections, that may lie in each other. -/
def maxDepth : Nat := 10000

namespace Scan

/-- The scan at the start of a text. -/
def start (cs : List Char) (marked : Nat) : Scan :=
  ⟨Cursor.start cs, 0, -1, [], true, [⟨none, 0⟩], false, marked, []⟩

/-- Adds a token. -/
def push (s : Scan) (kind : Kind) (line : Nat) : Scan :=
  { s with rev := ⟨kind, line⟩ :: s.rev }

/-- Puts a token in after the first `number` ones. -/
def insert (s : Scan) (number : Nat) (kind : Kind) (line : Nat) : Scan :=
  { s with rev := s.rev.insertIdx (s.rev.length - number) ⟨kind, line⟩ }

def problem (s : Scan) (started : Nat) (text : String) : Problem :=
  s.cursor.problem started text

/-- The problem of a key without its `:`. -/
def keyProblem (s : Scan) (k : PossibleKey) : Problem :=
  s.problem k.pos.line "could not find expected ':'"

/-- The problem of collections that lie too deep. -/
def depthProblem (s : Scan) : Problem :=
  s.problem s.cursor.pos.line ("exceeded max depth of " ++ Nat.repr maxDepth)

/-- The place where a key may have started. -/
def key (s : Scan) : Option PossibleKey :=
  s.levels.head?.bind (·.key)

/-- Changes what is known inside the innermost bracket. -/
def withLevel (s : Scan) (f : Level → Level) : Scan :=
  match s.levels with
  | l :: rest => { s with levels := f l :: rest }
  | [] => s

/-- The scan without a place where a key may have started. -/
def withoutKey (s : Scan) : Scan :=
  s.withLevel fun l => { l with key := none }

/-- Forgets the place where a key may have started. -/
def dropKey (s : Scan) : Except Problem Scan :=
  match s.key with
  | some k => if k.required then .error (s.keyProblem k) else .ok s.withoutKey
  | none => .ok s

/-- Remembers that a key may start here. -/
def saveKey (s : Scan) : Except Problem Scan :=
  if s.keyAllowed then do
    let k : PossibleKey :=
      ⟨s.flow == 0 && s.indent == s.cursor.pos.column, s.rev.length, s.cursor.pos, true⟩
    let s ← s.dropKey
    return s.withLevel fun _ => ⟨some k, k.number⟩
  else .ok s

/-- Ends the block collections that are deeper than a column. -/
def unroll (column : Int) (line : Nat) : List Int → Scan → Scan
  | [], s => s
  | outer :: rest, s =>
    if s.indent ≤ column then s
    else unroll column line rest { s.push .blockEnd line with indent := outer, indents := rest }

/-- Ends block collections that reach up to a line, unless inside
brackets. -/
def endBlocks (s : Scan) (column : Int) (line : Nat) : Scan :=
  if s.flow != 0 then s else unroll column line s.indents s

/-- Ends all block collections here. -/
def endAllBlocks (s : Scan) : Scan :=
  s.endBlocks (-1) s.cursor.pos.line

/-- Starts a block collection at a column if that is deeper, with its mark
after the first `number` tokens. -/
def startBlock (s : Scan) (column number : Nat) (kind : Kind) (line : Nat) :
    Except Problem Scan :=
  if s.flow != 0 || (column : Int) ≤ s.indent then .ok s
  else if maxDepth ≤ s.indents.length then .error s.depthProblem
  else .ok { s.insert number kind line with indent := column, indents := s.indent :: s.indents }

/-- In a first window that starts with a mark of the byte order, passes
over the mark, and over the first character of every other line too. -/
def skipMark (s : Scan) : Cursor :=
  let c := s.cursor
  let first := c.pos.index == 0 && s.marked != 0
  if c.pos.column == 0 && (first || c.pos.index + 1 < s.marked) then c.next else c

/-- Passes over blanks, comments and line breaks. A tab counts as a blank
only where no key may start. -/
def skipBlanks : Nat → Scan → Scan
  | 0, s => s
  | fuel + 1, s =>
    let tabs := s.flow != 0 || !s.keyAllowed
    let c := s.skipMark.skipWhile fun x => x == ' ' || (tabs && x == '\t')
    let c := if c.head == some '#' then c.skipComments (c.rest.length + 1) else c
    let s := { s with cursor := c }
    match c.head with
    | some x =>
      if isBreak x then
        skipBlanks fuel { s with cursor := c.nextLine, keyAllowed := s.keyAllowed || s.flow == 0 }
      else s
    | none => s

/-- Passes over `n` characters and adds a token that starts with them. -/
def take (s : Scan) (n : Nat) (kind : Kind) : Scan :=
  { s.push kind s.cursor.pos.line with cursor := s.cursor.skip n }

-- ========================================================= kinds of tokens

/-- The end of the text ends its line, if that is not empty. -/
def scanEnd (s : Scan) : Except Problem Scan := do
  let c := s.cursor
  let pos := if c.pos.column == 0 then c.pos else { c.pos with line := c.pos.line + 1, column := 0 }
  let s := { s with cursor := { c with pos } }.endAllBlocks
  let s ← s.dropKey
  return { s with keyAllowed := false, bare := true }.push .streamEnd pos.line

/-- `%YAML` and `%TAG` lines. -/
def scanDirective (s : Scan) : Except Problem Scan := do
  let s ← s.endAllBlocks.dropKey
  let s := { s with keyAllowed := false }
  let (d, after) ← readDirective s.cursor
  return { s.push (.directive d) s.cursor.pos.line with cursor := after, bare := true }

/-- `---` and `...`. -/
def scanDocumentMark (s : Scan) (kind : Kind) : Except Problem Scan := do
  let s ← s.endAllBlocks.dropKey
  return { s with keyAllowed := false, bare := true }.take 3 kind

/-- An opening bracket. -/
def scanOpen (s : Scan) (kind : Kind) : Except Problem Scan := do
  let s ← s.saveKey
  if maxDepth ≤ s.flow then .error s.depthProblem
  let level : Level := ⟨none, s.rev.length⟩
  return { s with levels := level :: s.levels, flow := s.flow + 1, keyAllowed := true }.take 1 kind

/-- Leaves the innermost bracket. If no key can have started inside, the
bracket itself does not wait for a `:` any longer. -/
def leave (s : Scan) : Scan :=
  match s.levels with
  | inner :: outer :: rest =>
    let key := outer.key.map fun k => { k with held := k.held && k.number != inner.number }
    { s with flow := s.flow - 1, levels := { outer with key } :: rest }
  | _ => s

/-- A closing bracket. -/
def scanClose (s : Scan) (kind : Kind) : Except Problem Scan := do
  let s ← s.dropKey
  let s := s.leave
  return { s with keyAllowed := false }.take 1 kind

/-- A comma between brackets. -/
def scanComma (s : Scan) : Except Problem Scan := do
  let s ← s.dropKey
  return { s with keyAllowed := true }.take 1 .comma

/-- The `-` of an entry. -/
def scanEntry (s : Scan) : Except Problem Scan := do
  let pos := s.cursor.pos
  if s.flow == 0 && !s.keyAllowed then
    .error (s.problem pos.line "block sequence entries are not allowed in this context")
  let s ← s.startBlock pos.column s.rev.length .sequenceStart pos.line
  let s ← s.dropKey
  return { s with keyAllowed := true, bare := true }.take 1 .entry

/-- The `?` of a key. -/
def scanKey (s : Scan) : Except Problem Scan := do
  let pos := s.cursor.pos
  if s.flow == 0 && !s.keyAllowed then
    .error (s.problem pos.line "mapping keys are not allowed in this context")
  let s ← s.startBlock pos.column s.rev.length .mappingStart pos.line
  let s ← s.dropKey
  return { s with keyAllowed := s.flow == 0 }.take 1 .key

/-- Whether a place is too far back, or on another line, for a key that
ends here. -/
def isStale (s : Scan) (k : PossibleKey) : Bool :=
  let pos := s.cursor.pos
  k.pos.line < pos.line || k.pos.index + 1024 < pos.index

/-- The place where the key before a `:` started, if there is one. -/
def keyBefore (s : Scan) : Except Problem (Option PossibleKey) :=
  match s.key with
  | some k =>
    if !s.isStale k then .ok (some k)
    else if k.required then .error (s.keyProblem k) else .ok none
  | none => .ok none

/-- Where the mark of a key goes: before it, unless it has been given
out. -/
def markPlace (s : Scan) (k : PossibleKey) : Nat :=
  if k.held || s.rev.length ≤ k.number + 2 then k.number else s.rev.length

/-- The `:` of a value. -/
def scanValue (s : Scan) : Except Problem Scan := do
  let pos := s.cursor.pos
  match ← s.keyBefore with
  | some k =>
    let place := s.markPlace k
    let s := s.insert place .key k.pos.line
    let s ← s.startBlock k.pos.column place .mappingStart k.pos.line
    return { s.withoutKey with keyAllowed := false }.take 1 .value
  | none =>
    if s.flow == 0 && !s.keyAllowed then
      .error (s.problem pos.line "mapping values are not allowed in this context")
    let s ← s.startBlock pos.column s.rev.length .mappingStart pos.line
    return { s.withoutKey with keyAllowed := s.flow == 0 }.take 1 .value

/-- The name after `&` or `*`. -/
def scanName (s : Scan) (kind : String → Kind) : Except Problem Scan := do
  let s ← s.saveKey
  let started := s.cursor.pos.line
  let name := s.cursor.next.rest.takeWhile isNameChar
  let c := s.cursor.skip (1 + name.length)
  let closed := endsWord c.head || (c.head.map fun x =>
    x == '?' || x == ':' || x == ',' || x == ']' || x == '\x7d' || x == '%' || x == '@'
      || x.toNat == 0x60).getD true
  if name.isEmpty || !closed then
    .error (c.problem started "did not find expected alphabetic or numeric character")
  return { s.push (kind (String.ofList name)) started with cursor := c, keyAllowed := false }

/-- A tag. -/
def scanTag (s : Scan) : Except Problem Scan := do
  let s ← s.saveKey
  let started := s.cursor.pos.line
  let ((handle, suffix), after) ← readTag started s.cursor
  return { s.push (.tag handle suffix) started with cursor := after, keyAllowed := false }

/-- A block scalar. -/
def scanBlock (s : Scan) (literal : Bool) : Except Problem Scan := do
  let s ← s.dropKey
  let started := s.cursor.pos.line
  let r ← readBlock literal s.indent started s.cursor.next
  return { s.push (.scalar (Text.ofChars r.text) .block) started with
    cursor := r.cursor, keyAllowed := true, bare := true }

/-- A quoted scalar. -/
def scanQuoted (s : Scan) (single : Bool) : Except Problem Scan := do
  let s ← s.saveKey
  let started := s.cursor.pos.line
  let c := s.cursor.next
  let r ← readQuoted single started (c.rest.length + 1) [] c
  return { s.push (.scalar (Text.ofChars r.text) (if single then .single else .double)) started with
    cursor := r.cursor, keyAllowed := false }

/-- A plain scalar. -/
def scanPlain (s : Scan) : Except Problem Scan := do
  let s ← s.saveKey
  let c := s.cursor
  let r ← readPlain (s.flow != 0) (s.indent + 1).toNat c.pos.line (c.rest.length + 1) [] Gap.none c
  return { s.push (.scalar (Text.ofChars r.text) .plain) c.pos.line with
    cursor := r.cursor, keyAllowed := r.newLine, bare := r.newLine }

/-- The characters that no plain scalar starts with. -/
def isIndicator (c : Char) : Bool :=
  "-?:,[]\x7b\x7d#&*!|>'\"%@".toList.contains c || c.toNat == 0x60

/-- Whether a plain scalar starts there. -/
def startsPlain (s : Scan) (x : Char) : Bool :=
  let follows := s.cursor.peek 1
  !(isSpace x || isBreak x || isIndicator x)
    || (x == '-' && !(follows.map isSpace).getD false)
    || (s.flow == 0 && (x == '?' || x == ':') && !endsWord follows)

/-- Passes over a comment on the rest of the line of the last token. That
of a `-` is left to what follows it. -/
def finishLine (s : Scan) : Scan :=
  if s.bare then s else { s with cursor := s.cursor.skipLineComment }

/-- How many characters the scan has looked at, the search for a comment
after the last token included. -/
def reach (s : Scan) : Nat :=
  s.cursor.pos.index + 1 + (if s.bare then 0 else min s.cursor.blanks (commentReach - 1))

/-- The token inside a document that a character starts. -/
def scanInside (s : Scan) (x : Char) : Except Problem Scan :=
  let inFlow := s.flow != 0
  let alone := endsWord (s.cursor.peek 1)
  if x == '[' then s.scanOpen .openSequence
  else if x == '\x7b' then s.scanOpen .openMapping
  else if x == ']' then s.scanClose .closeSequence
  else if x == '\x7d' then s.scanClose .closeMapping
  else if x == ',' then s.scanComma
  else if x == '-' && alone then s.scanEntry
  else if x == '?' && (inFlow || alone) then s.scanKey
  else if x == ':' && (inFlow || alone) then s.scanValue
  else if x == '*' then s.scanName .reference
  else if x == '&' then s.scanName .anchor
  else if x == '!' then s.scanTag
  else if x == '|' && !inFlow then s.scanBlock true
  else if x == '>' && !inFlow then s.scanBlock false
  else if x == '\'' then s.scanQuoted true
  else if x == '"' then s.scanQuoted false
  else if s.startsPlain x then s.scanPlain
  else .error (s.problem s.cursor.pos.line "found character that cannot start any token")

/-- The token that a character starts. -/
def scanFrom (s : Scan) (x : Char) : Except Problem Scan :=
  if s.cursor.pos.column == 0 && x == '%' then s.scanDirective
  else if s.cursor.atMark '-' then s.scanDocumentMark .documentStart
  else if s.cursor.atMark '.' then s.scanDocumentMark .documentEnd
  else (scanInside { s with bare := false } x).map finishLine

/-- The next token. It has to be found before the character at
`barrier`. -/
def step (s : Scan) (barrier : Option Nat) : Except Problem Scan := do
  let before := s.cursor.pos.line
  let s := skipBlanks (s.cursor.rest.length + 1) s
  let s := s.endBlocks s.cursor.pos.column before
  let next ← match s.cursor.head with
    | none => s.scanEnd
    | some x => s.scanFrom x
  if barrier.any (· < max (s.cursor.pos.index + 4) next.reach) then .error Problem.badCharacter
  return next

/-- How many tokens can be given out if there is no further one: those
that two others follow, up to one that may still start a key. -/
def givenOut (s : Scan) : Nat :=
  let held := s.levels.filterMap (·.key) |>.filter fun k => k.held && !s.isStale k
  held.foldl (fun n k => min n k.number) (s.rev.length - 2)

end Scan

/-- The tokens of a text, up to its end or to a problem. -/
structure Stream where
  tokens : List Token
  problem : Option Problem

/-- Scans to the end of the text, or to the character at `barrier`. -/
def scanAll (barrier : Option Nat) : Nat → Scan → Stream
  | 0, s => ⟨s.rev.reverse, none⟩
  | fuel + 1, s =>
    match s.step barrier with
    | .error p => ⟨s.rev.reverse.take s.givenOut, some p⟩
    | .ok next =>
      match next.rev with
      | ⟨.streamEnd, _⟩ :: _ => ⟨next.rev.reverse, none⟩
      | _ => scanAll barrier fuel next

-- ================================================================= windows

/-- Whether a document may hold the character. -/
def isAllowed (c : Char) : Bool :=
  let n := c.toNat
  n == 0x09 || n == 0x0a || n == 0x0d || (0x20 ≤ n && n ≤ 0x7e) || n == 0x85
    || (0xa0 ≤ n && n ≤ 0xd7ff) || (0xe000 ≤ n && n ≤ 0xfffd) || 0x10000 ≤ n

/-- Whether the character is a mark of the byte order. -/
def isByteOrderMark (c : Char) : Bool :=
  c.toNat == 0xfeff

/-- How many bytes a window has. A character that is cut by its end is
left for the next one. -/
def windowSize : Nat := 512

/-- The windows of a text; the current one has room for `room` more bytes,
and `rev` holds its characters, last first. -/
def windowsFrom (room : Nat) (rev : List Char) : List Char → List (List Char)
  | [] => [rev.reverse]
  | c :: cs =>
    let size := (Text.spelling c).length
    if size ≤ room then windowsFrom (room - size) (c :: rev) cs
    else rev.reverse :: windowsFrom (windowSize - size) [c] cs

/-- The place where the first window starts that holds a character that is
not allowed. -/
def barrierFrom (place : Nat) : List (List Char) → Option Nat
  | [] => none
  | window :: rest =>
    if window.all isAllowed then barrierFrom (place + window.length) rest else some place

/-- The tokens of a document. A mark of the byte order at its start is
passed over. -/
def Stream.ofChars (cs : List Char) : Stream :=
  let (room, cs) := match cs with
    | c :: rest => if isByteOrderMark c then (windowSize - 3, rest) else (windowSize, c :: rest)
    | [] => (windowSize, [])
  let windows := windowsFrom room [] cs
  let first := windows.headD []
  let marked := if (first.head?.map isByteOrderMark).getD false then first.length else 0
  match barrierFrom 0 windows with
  | some 0 => ⟨[], some .badCharacter⟩
  | barrier => scanAll barrier (cs.length + 2) (Scan.start cs marked)

/-- The tokens of a document's text. -/
def Stream.ofText (text : String) : Stream :=
  let letters := Text.letters text
  if letters.all (·.char?.isSome) then Stream.ofChars (letters.map (·.shown))
  else ⟨[], some .badByte⟩

end LispShell.Yaml
