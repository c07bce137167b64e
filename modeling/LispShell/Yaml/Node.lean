/-
Documents as trees of nodes.

A document is read from the tokens of its text by recursive descent. A
node can have a tag and a name (`&name`), in either order, and a node can
stand for one that was named before (`*name`). A named collection may
hold references to itself, so a reference does not hold its target but
the place of it in the list of all named nodes.

What follows the first document is not read.
-/
import LispShell.Yaml.Tag
import LispShell.Yaml.Token

namespace LispShell.Yaml

/-- A node, with the number of its line. -/
inductive Node where
  | scalar (line : Nat) (tag text : String)
  | sequence (line : Nat) (tag : String) (items : List Node)
  | mapping (line : Nat) (tag : String) (entries : List (Node × Node))
  /-- Stands for the named node at a place; the number tells references
  apart. -/
  | reference (line : Nat) (name : String) (place number : Nat)

/-- A document: its root, its named nodes, and how many tokens it has. -/
structure Document where
  root : Node
  named : List Node
  size : Nat

namespace Node

/-- The line a node starts at. -/
def line : Node → Nat
  | .scalar line .. | .sequence line .. | .mapping line .. | .reference line .. => line

/-- The tag of a node; a reference has none. -/
def tag : Node → String
  | .scalar _ tag _ | .sequence _ tag _ | .mapping _ tag _ => tag
  | .reference .. => ""

/-- An empty node after something on a line, counted from zero. -/
def emptyAt (line : Nat) : Node :=
  .scalar (line + 1) Meaning.null.tag ""

end Node

/-- The node that a node stands for. -/
def Document.target (d : Document) : Node → Node
  | .reference line _ place _ => d.named.getD place (Node.emptyAt line)
  | n => n

-- ================================================================= reading

/-- The state of reading: what is left of the tokens, the handles of tags,
the names and their places, and the named nodes so far. -/
structure Reading where
  stream : Stream
  handles : List (String × String)
  names : List (String × Nat)
  named : List Node

abbrev Parse := StateT Reading (Except Problem)

namespace Parse

/-- The next token, if it is given out before a problem. -/
def peek : Parse Token := fun r =>
  match r.stream.tokens, r.stream.problem with
  | t :: _, _ => .ok (t, r)
  | [], some p => .error p
  | [], none => .ok (⟨.streamEnd, 0⟩, r)

/-- Passes over a token. -/
def skip : Parse Unit :=
  modify fun r => { r with stream := { r.stream with tokens := r.stream.tokens.tail } }

/-- How many tokens are left. -/
def left : Parse Nat :=
  return (← get).stream.tokens.length

/-- Fails with a problem at a line, in something that started at another
line. -/
def fail {α : Type} (started showed : Nat) (text : String) : Parse α :=
  fun _ => .error ⟨false, started, showed, text⟩

/-- Gives the node that comes next a name. Until it is complete its place
holds an empty node. -/
def name (n : String) (line : Nat) : Parse Nat := fun r =>
  let place := r.named.length
  .ok (place, { r with names := (n, place) :: r.names, named := r.named ++ [Node.emptyAt line] })

/-- Completes a named node. -/
def complete (place : Option Nat) (n : Node) : Parse Node := fun r =>
  match place with
  | none => .ok (n, r)
  | some p => .ok (n, { r with named := r.named.set p n })

end Parse

open Parse

/-- Where a node stands. Right under a key, entries need no deeper
indentation. -/
inductive Place where
  | block
  | underKey
  | flow
  deriving DecidableEq

/-- What can stand in front of a node: its line, its name and its tag,
`""` if there is none. -/
structure Properties where
  line : Nat
  name : Option String
  tag : String

/-- The tag that a handle and the rest of a tag make. -/
def fullTag (started showed : Nat) (handle suffix : String) : Parse String := do
  if handle == "" then return suffix
  match (← get).handles.lookup handle with
  | some front => return front ++ suffix
  | none => fail started showed "found undefined tag handle"

/-- A tag of the common set in its short form. -/
def shortTag (tag : String) : String :=
  let common := "tag:yaml.org,2002:"
  if Text.startsWith tag common then
    "!!" ++ String.ofList (tag.toList.drop common.toList.length)
  else tag

/-- Reads what stands in front of a node. -/
def readProperties : Parse Properties := do
  let first ← peek
  match first.kind with
  | .anchor n => do
    skip
    let second ← peek
    match second.kind with
    | .tag handle suffix => do
      skip
      let tag ← fullTag first.line second.line handle suffix
      return ⟨first.line, some n, tag⟩
    | _ => return ⟨first.line, some n, ""⟩
  | .tag handle suffix => do
    skip
    let second ← peek
    match second.kind with
    | .anchor n => do
      skip
      let tag ← fullTag first.line first.line handle suffix
      return ⟨first.line, some n, tag⟩
    | _ => do
      let tag ← fullTag first.line first.line handle suffix
      return ⟨first.line, none, tag⟩
  | _ => return ⟨first.line, none, ""⟩

/-- The tag of a node: the one it was given, or that of its kind. -/
def Properties.tagOr (p : Properties) (default : String) : String :=
  if p.tag == "" || p.tag == "!" then default else shortTag p.tag

section Collections

variable (node : Place → Parse Node)

/-- The entries of an indented sequence that started at a line. -/
def readEntries (started : Nat) : Nat → List Node → Parse (List Node)
  | 0, rev => return rev.reverse
  | fuel + 1, rev => do
    let t ← peek
    match t.kind with
    | .entry => do
      skip
      match (← peek).kind with
      | .entry | .blockEnd => readEntries started fuel (Node.emptyAt t.line :: rev)
      | _ => do
        let n ← node .block
        readEntries started fuel (n :: rev)
    | .blockEnd => do
      skip
      return rev.reverse
    | _ => fail started t.line "did not find expected '-' indicator"

/-- The entries of a sequence right under a key. -/
def readBareEntries : Nat → List Node → Parse (List Node)
  | 0, rev => return rev.reverse
  | fuel + 1, rev => do
    let t ← peek
    match t.kind with
    | .entry => do
      skip
      match (← peek).kind with
      | .entry | .key | .value | .blockEnd => readBareEntries fuel (Node.emptyAt t.line :: rev)
      | _ => do
        let n ← node .block
        readBareEntries fuel (n :: rev)
    | _ => return rev.reverse

/-- A key or a value of an indented mapping, after its mark. -/
def readUnderMark (line : Nat) : Parse Node := do
  match (← peek).kind with
  | .key | .value | .blockEnd => return Node.emptyAt line
  | _ => node .underKey

/-- The entries of an indented mapping that started at a line. -/
def readPairs (started : Nat) : Nat → List (Node × Node) → Parse (List (Node × Node))
  | 0, rev => return rev.reverse
  | fuel + 1, rev => do
    let t ← peek
    match t.kind with
    | .key => do
      skip
      let k ← readUnderMark node t.line
      let mark ← peek
      match mark.kind with
      | .value => do
        skip
        let v ← readUnderMark node mark.line
        readPairs started fuel ((k, v) :: rev)
      | _ => readPairs started fuel ((k, Node.emptyAt mark.line) :: rev)
    | .blockEnd => do
      skip
      return rev.reverse
    | _ => fail started t.line "did not find expected key"

/-- The value of an entry between brackets, which may be missing. `ends`
tells the tokens that end the entry. -/
def readFlowValue (ends : Kind → Bool) : Parse Node := do
  let t ← peek
  match t.kind with
  | .value => do
    skip
    let next ← peek
    if ends next.kind then return Node.emptyAt next.line else node .flow
  | _ => return Node.emptyAt t.line

/-- Whether a token ends an entry of a sequence. -/
def endsItem : Kind → Bool
  | .comma | .closeSequence => true
  | _ => false

/-- Whether a token ends an entry of a mapping. -/
def endsPair : Kind → Bool
  | .comma | .closeMapping => true
  | _ => false

/-- A single pair in a bracketed sequence, after the mark of its key. If
the key is missing, the token in its place is passed over. -/
def readSinglePair : Parse (Node × Node) := do
  let t ← peek
  let missing := match t.kind with
    | .value => true
    | kind => endsItem kind
  let k ← if missing then do
      skip
      pure (Node.emptyAt t.line)
    else node .flow
  let v ← readFlowValue node endsItem
  return (k, v)

/-- Passes over the comma between two entries. -/
def readComma (first : Bool) (started : Nat) (text : String) : Parse Unit := do
  if !first then
    let t ← peek
    match t.kind with
    | .comma => skip
    | _ => fail started t.line text

/-- The items of a bracketed sequence that started at a line. -/
def readItems (started : Nat) (first : Bool) : Nat → List Node → Parse (List Node)
  | 0, rev => return rev.reverse
  | fuel + 1, rev => do
    match (← peek).kind with
    | .closeSequence => do
      skip
      return rev.reverse
    | _ => do
      readComma first started "did not find expected ',' or ']'"
      let t ← peek
      match t.kind with
      | .key => do
        skip
        let pair ← readSinglePair node
        readItems started false fuel (.mapping (t.line + 1) "!!map" [pair] :: rev)
      | .closeSequence => do
        skip
        return rev.reverse
      | _ => do
        let n ← node .flow
        readItems started false fuel (n :: rev)

/-- The entries of a bracketed mapping that started at a line. -/
def readFields (started : Nat) (first : Bool) :
    Nat → List (Node × Node) → Parse (List (Node × Node))
  | 0, rev => return rev.reverse
  | fuel + 1, rev => do
    match (← peek).kind with
    | .closeMapping => do
      skip
      return rev.reverse
    | _ => do
      readComma first started "did not find expected ',' or '\x7d'"
      let t ← peek
      match t.kind with
      | .key => do
        skip
        let next ← peek
        let missing := match next.kind with
          | .value => true
          | kind => endsPair kind
        let k ← if missing then pure (Node.emptyAt next.line) else node .flow
        let v ← readFlowValue node endsPair
        readFields started false fuel ((k, v) :: rev)
      | .closeMapping => do
        skip
        return rev.reverse
      | _ => do
        let k ← node .flow
        let t ← peek
        readFields started false fuel ((k, Node.emptyAt t.line) :: rev)

/-- The tag of a scalar that has none of its own. -/
def defaultTag (style : Style) (text : String) : String :=
  match style with
  | .plain => plainTag text
  | _ => Meaning.text.tag

/-- Reads a node after its properties. -/
def readContent (place : Place) (p : Properties) : Parse Node := do
  let t ← peek
  let line := p.line + 1
  let fuel := (← left) + 1
  let spot ← match p.name with
    | some n => do
      let spot ← Parse.name n p.line
      pure (some spot)
    | none => pure none
  let sequence (items : List Node) : Parse Node :=
    complete spot (.sequence line (p.tagOr "!!seq") items)
  let mapping (entries : List (Node × Node)) : Parse Node :=
    complete spot (.mapping line (p.tagOr "!!map") entries)
  match t.kind, place with
  | .entry, .underKey => do sequence (← readBareEntries node fuel [])
  | .scalar text style, _ => do
    skip
    complete spot (.scalar line (p.tagOr (defaultTag style text)) text)
  | .openSequence, _ => do
    skip
    sequence (← readItems node t.line true fuel [])
  | .openMapping, _ => do
    skip
    mapping (← readFields node t.line true fuel [])
  | kind, place =>
    match kind, place == .flow with
    | .sequenceStart, false => do
      skip
      sequence (← readEntries node t.line fuel [])
    | .mappingStart, false => do
      skip
      mapping (← readPairs node t.line fuel [])
    | _, _ =>
      if p.name.isSome || p.tag != "" then
        complete spot (.scalar line (p.tagOr (plainTag "")) "")
      else fail p.line t.line "did not find expected node content"

/-- Reads a node. -/
def readNodeWith (place : Place) : Parse Node := do
  let t ← peek
  match t.kind with
  | .reference n => do
    match (← get).names.lookup n with
    | some spot => do
      let number ← left
      skip
      return .reference (t.line + 1) n spot number
    | none => fail 0 0 ("unknown anchor '" ++ n ++ "' referenced")
  | _ => do
    let p ← readProperties
    readContent node place p

end Collections

/-- Reads a node, with a bound on how deep nodes lie in each other. -/
def readNode : Nat → Place → Parse Node
  | 0, _ => fail 0 0 "exceeded max depth"
  | depth + 1, place => readNodeWith (readNode depth) place

-- =============================================================== documents

/-- The handles that every document has. -/
def commonHandles : List (String × String) :=
  [("!", "!"), ("!!", "tag:yaml.org,2002:")]

/-- Reads the directives in front of a document. -/
def readDirectives : Nat → Bool → Parse Unit
  | 0, _ => return ()
  | fuel + 1, versioned => do
    let t ← peek
    match t.kind with
    | .directive (.version major minor) => do
      if versioned then fail 0 t.line "found duplicate %YAML directive"
      if major != 1 || minor != 1 then fail 0 t.line "found incompatible YAML document"
      skip
      readDirectives fuel true
    | .directive (.handle handle front) => do
      if ((← get).handles.lookup handle).isSome then
        fail 0 t.line "found duplicate %TAG directive"
      modify fun r => { r with handles := r.handles ++ [(handle, front)] }
      skip
      readDirectives fuel versioned
    | _ => return ()

/-- Whether a token stands between documents. -/
def endsDocument : Kind → Bool
  | .directive _ | .documentStart | .documentEnd | .streamEnd => true
  | _ => false

/-- Adds the common handles that a document does not define itself. -/
def addCommonHandles : Parse Unit :=
  modify fun r => { r with handles := r.handles ++ commonHandles }

/-- Reads the root of a document that starts with directives or `---`. -/
def readExplicit (depth : Nat) : Parse Node := do
  readDirectives depth false
  addCommonHandles
  let t ← peek
  match t.kind with
  | .documentStart => do
    skip
    let next ← peek
    if endsDocument next.kind then return Node.emptyAt next.line else readNode depth .block
  | _ => fail 0 t.line "did not find expected <document start>"

/-- Reads the root of the first document, if there is one, and checks that
what follows can be scanned. -/
def readRoot (depth : Nat) : Parse (Option Node) := do
  let t ← peek
  match t.kind with
  | .streamEnd => return none
  | .directive _ | .documentStart => do
    let root ← readExplicit depth
    let _ ← peek
    return some root
  | _ => do
    addCommonHandles
    let root ← readNode depth .block
    let _ ← peek
    return some root

/-- Reads the first document of a text, if it has one. -/
def Document.ofText (text : String) : Except Problem (Option Document) :=
  let stream := Stream.ofText text
  let size := stream.tokens.length
  match readRoot (size + 2) ⟨stream, [], [], []⟩ with
  | .error p => .error p
  | .ok (none, _) => .ok none
  | .ok (some root, r) => .ok (some ⟨root, r.named, size⟩)

end LispShell.Yaml
