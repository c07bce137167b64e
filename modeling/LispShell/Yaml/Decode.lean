/-
Nodes as values.

Decoding goes on after a node of the wrong type and collects what was
wrong with each (`Complaints`); only what makes the whole document
meaningless ends it at once. A record is a set of named fields, each with
a decoder that changes the value decoded so far, so a field that is
missing or null leaves it as it is.

The special key `<<` of a record merges other mappings into it: their
fields count where the record has none of its own, and of several
mappings the first counts.
-/
import LispShell.Text.Quoted
import LispShell.Yaml.Node

namespace LispShell.Yaml

/-- What was wrong with nodes so far, in order. -/
abbrev Complaints := List String

/-- How far decoding has come: what was wrong, how many nodes were decoded
and how many of those through references, and how many references lead to
where it is. -/
structure Decoding where
  complaints : Complaints
  nodes : Nat
  shared : Nat
  depth : Nat

namespace Decoding

/-- Nothing decoded yet. -/
def start : Decoding :=
  ⟨[], 0, 0, 0⟩

/-- Decoding with one more node. -/
def count (s : Decoding) : Decoding :=
  { s with nodes := s.nodes + 1, shared := s.shared + (if s.depth == 0 then 0 else 1) }

/-- Whether too large a part of the nodes was decoded through references:
more than 99 of 100, and less and less, down to a tenth, as they become
many. -/
def isExcessive (s : Decoding) : Bool :=
  let few := 400000
  let many := 4000000
  100 < s.shared && 1000 < s.nodes
    && (if s.nodes ≤ few then 99 * s.nodes < 100 * s.shared
      else if many ≤ s.nodes then s.nodes < 10 * s.shared
      else (99 * (many - few) - 89 * (s.nodes - few)) * s.nodes
        < 100 * (many - few) * s.shared)

end Decoding

/-- Decoding: it collects complaints, and may end with a message. -/
abbrev Decode := StateT Decoding (Except String)

namespace Decode

/-- Adds complaints. -/
def complainAll (complaints : Complaints) : Decode Unit :=
  modify fun s => { s with complaints := s.complaints ++ complaints }

/-- Adds a complaint about something on a line. -/
def complain (line : Nat) (text : String) : Decode Unit :=
  complainAll ["line " ++ Nat.repr line ++ ": " ++ text]

/-- Ends decoding. -/
def fail {α : Type} (text : String) : Decode α :=
  fun _ => .error text

/-- Counts a node. -/
def visit : Decode Unit := do
  modify Decoding.count
  if (← get).isExcessive then fail "yaml: document contains excessive aliasing"

/-- Decodes what a reference leads to. -/
def inside {α : Type} (decode : Decode α) : Decode α := do
  modify fun s => { s with depth := s.depth + 1 }
  let v ← decode
  modify fun s => { s with depth := s.depth - 1 }
  return v

/-- Decodes a node, or the one that it refers to. -/
def following {α : Type} (d : Document) (n : Node) (decode : Node → Decode α) : Decode α := do
  visit
  match n with
  | .reference .. => inside do
    visit
    decode (d.target n)
  | n => decode n

/-- Decodes by itself, and answers the complaints too. -/
def apart {α : Type} (decode : Decode α) : Decode (α × Complaints) := fun s =>
  match decode .start with
  | .ok (v, own) => .ok ((v, own.complaints), s)
  | .error text => .error text

/-- A scalar as complaints show it: a long one is cut. -/
def shown (s : String) : String :=
  if 10 < s.length then String.ofList (s.toList.take 7) ++ "..." else s

/-- Complains that a node is not of a type. -/
def wrongType (n : Node) (type : String) : Decode Unit :=
  let text := match n with
    | .scalar _ _ s => s
    | _ => ""
  let value := if n.tag == "!!seq" || n.tag == "!!map" then text
    else " \x60" ++ shown text ++ "\x60"
  complain n.line ("cannot unmarshal " ++ n.tag ++ value ++ " into " ++ type)

/-- What a scalar stands for, if its spelling agrees with its tag. -/
def meaning (tag s : String) : Decode Meaning :=
  match resolve tag s with
  | .ok m => return m
  | .error text => fail text

-- ================================================================ repeated

/-- Whether two keys are written the same way. -/
def sameKey : Node → Node → Bool
  | .scalar _ _ a, .scalar _ _ b => a == b
  | .reference _ a _ _, .reference _ b _ _ => a == b
  | .sequence .., .sequence .. => true
  | .mapping .., .mapping .. => true
  | _, _ => false

/-- A key as complaints show it. -/
def keyText : Node → String
  | .scalar _ _ s => s
  | .reference _ name _ _ => name
  | _ => ""

/-- Complains about keys that repeat an earlier one. -/
def complainRepeats : List Node → Decode Unit
  | [] => return ()
  | k :: rest => do
    for other in rest do
      if sameKey k other then
        complain other.line ("mapping key " ++ Text.quote (keyText other)
          ++ " already defined at line " ++ Nat.repr k.line)
    complainRepeats rest

/-- Whether no key of a mapping repeats another one. -/
def distinctKeys (entries : List (Node × Node)) : Decode Bool := do
  let before := (← get).complaints.length
  complainRepeats (entries.map (·.1))
  return (← get).complaints.length == before

-- ================================================================= scalars

/-- The digit that a character is in base 64. -/
def base64Digit? (c : Char) : Option Nat :=
  if 'A' ≤ c && c ≤ 'Z' then some (c.toNat - 'A'.toNat)
  else if 'a' ≤ c && c ≤ 'z' then some (c.toNat - 'a'.toNat + 26)
  else if '0' ≤ c && c ≤ '9' then some (c.toNat - '0'.toNat + 52)
  else if c == '+' then some 62
  else if c == '/' then some 63
  else none

/-- The bytes that groups of four characters stand for. Only the last
group may be filled up with `=`. -/
def base64Bytes? : List Char → Option (List Char)
  | [] => some []
  | a :: b :: c :: d :: rest => do
    let x ← base64Digit? a
    let y ← base64Digit? b
    let first := Text.byte (x * 4 + y / 16)
    if c == '=' then
      if d == '=' && rest.isEmpty then some [first] else none
    else
      let z ← base64Digit? c
      let second := Text.byte (y % 16 * 16 + z / 4)
      if d == '=' then
        if rest.isEmpty then some [first, second] else none
      else
        let w ← base64Digit? d
        let more ← base64Bytes? rest
        some (first :: second :: Text.byte (z % 4 * 64 + w) :: more)
  | _ => none

/-- The bytes that base 64 stands for. Line breaks in it do not count. -/
def base64? (s : String) : Option String :=
  (base64Bytes? (s.toList.filter fun c => c != '\n' && c != '\r')).map String.ofList

/-- What a scalar stands for, and its text: binary data is written in base
64. -/
def content (tag s : String) : Decode (Meaning × String) := do
  let m ← meaning tag s
  if tag != "!!binary" then return (m, s)
  match base64? s with
  | some bytes => return (m, bytes)
  | none => fail "yaml: !!binary value contains invalid base64 data"

/-- Complains that a collection is not of a type, or about its keys. -/
def wrongCollection (n : Node) (type : String) : Decode Unit :=
  match n with
  | .mapping _ _ entries => do
    if ← distinctKeys entries then wrongType n type
  | n => wrongType n type

/-- Decodes a text; nothing if the node is null or of another type. -/
def text (d : Document) (n : Node) : Decode (Option String) :=
  following d n fun
    | .scalar _ tag s => do
      match ← content tag s with
      | (.null, _) => return none
      | (_, t) => return some t
    | n => do
      wrongCollection n "string"
      return none

/-- The words for yes and no that count where a truth value is wanted. -/
def boolWords : List (String × Bool) :=
  ["y", "Y", "yes", "Yes", "YES", "on", "On", "ON"].map (·, true)
  ++ ["n", "N", "no", "No", "NO", "off", "Off", "OFF"].map (·, false)

/-- Decodes a truth value; nothing if the node is null or of another
type. -/
def bool (d : Document) (n : Node) : Decode (Option Bool) :=
  following d n fun
    | .scalar line tag s => do
      match ← content tag s with
      | (.null, _) => return none
      | (.bool b, _) => return some b
      | (m, t) =>
        match m, boolWords.lookup t with
        | .text, some b => return some b
        | _, _ => do
          wrongType (.scalar line tag s) "bool"
          return none
    | n => do
      wrongCollection n "bool"
      return none

/-- The name that a key takes, if it is a text. -/
def keyName (d : Document) (n : Node) : Decode (Option String) :=
  following d n fun
    | .scalar _ tag s => do
      match ← content tag s with
      | (.text, t) => return some t
      | _ => return none
    | .mapping _ _ entries => do
      let _ ← distinctKeys entries
      return none
    | _ => return none

end Decode

-- ================================================================= records

/-- A field of a record: its name, and how to decode its node into the
record. -/
structure Field (τ : Type) where
  name : String
  decode : Document → Node → τ → Decode τ

/-- A kind of records. -/
structure Record (τ : Type) where
  typeName : String
  fields : List (Field τ)

namespace Record

open Decode

variable {τ : Type}

/-- Whether a key merges other mappings into its own. -/
def isMerge : Node → Bool
  | .scalar _ tag s => s == "<<" && tag == "!!merge"
  | _ => false

/-- What has been decoded of a mapping: the record, the names that count
as taken by an outer mapping, if there is one, and the names found. -/
structure Progress (τ : Type) where
  value : τ
  taken : Option (List String)
  found : List String

/-- Decodes the entry of a key that spells a name. -/
def decodeNamed (r : Record τ) (d : Document) (p : Progress τ) (key value : Node)
    (name : String) : Decode (Progress τ) :=
  if (p.taken.getD []).contains name then return p
  else
    let taken := p.taken.map (name :: ·)
    match r.fields.find? fun f => f.name == name with
    | none => do
      complain key.line ("field " ++ name ++ " not found in type " ++ r.typeName)
      return { p with taken }
    | some f =>
      if p.found.contains name then do
        complain key.line ("field " ++ name ++ " already set in type " ++ r.typeName)
        return { p with taken }
      else do
        let value ← f.decode d value p.value
        return ⟨value, taken, name :: p.found⟩

/-- Decodes the entry of a key. -/
def decodeEntry (r : Record τ) (d : Document) (p : Progress τ) (key value : Node) :
    Decode (Progress τ) := do
  match ← Decode.text d key with
  | none => return p
  | some name => decodeNamed r d p key value name

/-- Decodes the entries of a mapping, but for those that merge. -/
def decodeEntries (r : Record τ) (d : Document) :
    List (Node × Node) → Progress τ → Decode (Progress τ)
  | [], p => return p
  | (key, value) :: rest, p =>
    if isMerge key then decodeEntries r d rest p
    else do
      let p ← decodeEntry r d p key value
      decodeEntries r d rest p

/-- The names that the keys of a mapping take. -/
def takenNames (d : Document) : List (Node × Node) → Decode (List String)
  | [] => return []
  | (key, _) :: rest => do
    let name ← keyName d key
    let others ← takenNames d rest
    return name.toList ++ others

/-- The names that a mapping settles for those it merges: those of an outer
mapping and its own, or those that its keys take. -/
def settledNames (d : Document) (entries : List (Node × Node)) :
    Option (List String) → Decode (List String)
  | some names => return names
  | none => takenNames d entries

/-- The mappings that a node merges. -/
def mergedNodes (d : Document) (n : Node) : Except String (List Node) :=
  let isMapping (n : Node) : Bool := match d.target n with
    | .mapping .. => true
    | _ => false
  let checked (ns : List Node) : Except String (List Node) :=
    if ns.all isMapping then .ok ns
    else .error "yaml: map merge requires map or sequence of maps as the value"
  match n with
  | .sequence _ _ items => checked items
  | other => checked [other]

/-- Decodes mappings one after the other over a record; a name that one of
them has is settled for those after it. `again` decodes one of them. -/
def decodeSources (again : Option (List String) → Node → τ → Decode (τ × Option (List String))) :
    List Node → List String → τ → Decode (τ × List String)
  | [], names, x => return (x, names)
  | m :: rest, names, x => do
    let (v, after) ← again (some names) m x
    decodeSources again rest (after.getD []) v

/-- Decodes the mappings that a mapping merges, after its own entries. -/
def decodeMerged (d : Document) (entries : List (Node × Node))
    (again : Option (List String) → Node → τ → Decode (τ × Option (List String)))
    (p : Progress τ) : Decode (τ × Option (List String)) :=
  match (entries.filter fun e => isMerge e.1).getLast? with
  | none => return (p.value, p.taken)
  | some (_, source) => do
    let names ← settledNames d entries p.taken
    match mergedNodes d source with
    | .error text => fail text
    | .ok nodes => do
      let (v, names) ← decodeSources again nodes names p.value
      return (v, p.taken.map fun _ => names)

/-- Decodes a mapping: its own entries, and then those it merges. -/
def decodeMapping (r : Record τ) (d : Document)
    (again : Option (List String) → Node → τ → Decode (τ × Option (List String)))
    (taken : Option (List String)) (entries : List (Node × Node)) (x : τ) :
    Decode (τ × Option (List String)) := do
  if ← distinctKeys entries then
    let p ← decodeEntries r d entries ⟨x, taken, []⟩
    decodeMerged d entries again p
  else return (x, taken)

/-- Takes a null for a record without entries. -/
def decodeScalar (r : Record τ) (line : Nat) (tag s : String) : Decode Unit := do
  let (m, _) ← content tag s
  if m == .null then return () else wrongType (.scalar line tag s) r.typeName

/-- Decodes a record. `visiting` holds the references on the way, so that
one that leads to itself is found. -/
def decodeWith (r : Record τ) (d : Document) :
    Nat → List Nat → Option (List String) → Node → τ → Decode (τ × Option (List String))
  | 0, _, _, _, _ => fail "yaml: exceeded max depth"
  | fuel + 1, visiting, taken, n, x => do
    visit
    match n with
    | .reference _ name _ number =>
      if visiting.contains number then fail ("yaml: anchor '" ++ name ++ "' value contains itself")
      else inside (decodeWith r d fuel (number :: visiting) taken (d.target n) x)
    | .mapping _ _ entries => decodeMapping r d (decodeWith r d fuel visiting) taken entries x
    | .scalar line tag s => do
      decodeScalar r line tag s
      return (x, taken)
    | n => do
      wrongType n r.typeName
      return (x, taken)

/-- Decodes a record over the values it has so far. -/
def decode (r : Record τ) (d : Document) (n : Node) (x : τ) : Decode τ := do
  let (v, _) ← decodeWith r d ((d.size + 2) * (d.size + 2)) [] none n x
  return v

/-- Decodes a document that holds a record, over the values it has so
far. Answers what was wrong too. -/
def ofDocument (r : Record τ) (d : Document) (x : τ) : Except String (τ × Complaints) :=
  let whole : Decode τ := do
    visit
    r.decode d d.root x
  (whole .start).map fun (v, s) => (v, s.complaints)

end Record

end LispShell.Yaml
