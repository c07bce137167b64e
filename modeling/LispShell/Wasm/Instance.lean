/-
Modules of machine code at work.

An engine turns code into a blueprint: what the module exports and how it
starts. An instance is a blueprint that was started; its globals are the
only thing about it that changes. A store keeps the instances by name, so
that each name is started at most once (`Store.instantiate`).

A call checks the number of arguments, passes them as words from left to
right, runs the function, and takes its results back. One result is the
value, several make a sequence, none is no value.
-/
import LispShell.Machine
import LispShell.Path
import LispShell.Wasm.Word

namespace LispShell.Wasm

/-- A global: its type and its word. -/
structure Global where
  type : ValType
  word : UInt64

/-- The globals of an instance, by name. -/
abbrev Globals := List (String × Global)

/-- A function: its type and what it does to its arguments and the
globals. It gives its results, or the text of a trap. -/
structure Function where
  params : List ValType
  results : List ValType
  run : List UInt64 → Globals → Except String (List UInt64) × Globals

/-- What a module exports and how it starts. -/
structure Blueprint where
  functions : List (String × Function)
  globals : Globals
  start : Globals → Except String Globals

/-- Turns code into a blueprint, or says why it is none. -/
abbrev Engine := String → Except String Blueprint

/-- A module at work. -/
structure Instance where
  functions : List (String × Function)
  globals : Globals

/-- The instances, by name. -/
abbrev Store := List (String × Instance)

namespace Store

def get? (s : Store) (name : String) : Option Instance :=
  s.lookup name

/-- Replaces the globals of an instance. -/
def setGlobals (s : Store) (name : String) (globals : Globals) : Store :=
  s.map fun entry => if entry.1 == name then (name, { entry.2 with globals }) else entry

/-- What starting a module comes to: the failure if it failed, the store
after it, and what is logged. -/
structure Started where
  failure : Option Failure
  store : Store
  log : List LogEntry

/-- Starts a module under a name; one that was started stays as it is. -/
def instantiate (engine : Engine) (name code : String) (s : Store) : Started :=
  match s.get? name with
  | some _ => ⟨none, s, []⟩
  | none =>
    match engine code with
    | .error what => ⟨some (.within ("compile wasm module " ++ name) (.other what)), s, []⟩
    | .ok b =>
      match b.start b.globals with
      | .error trap =>
        let cause := "module[" ++ name ++ "] function[_initialize] failed: " ++ trap
        ⟨some (.within ("instantiate wasm module " ++ name) (.other cause)), s, []⟩
      | .ok globals =>
        ⟨none, (name, ⟨b.functions, globals⟩) :: s,
          [⟨-4, "instantiated wasm module",
            [("name", name), ("functions", Nat.repr b.functions.length)]⟩]⟩

end Store

/-- The first file of a name in the search paths: its path and what
reading it came to. A missing file is passed over. -/
def findCode (read : String → Except Failure String) (name : String) :
    List String → Option (String × Except Failure String)
  | [] => none
  | directory :: rest =>
    let path := Path.join directory (name ++ ".wasm")
    match read path with
    | .ok code => some (path, .ok code)
    | .error e => if e.isMissingFile then findCode read name rest else some (path, .error e)

/-- What looking for a module comes to. -/
structure Found where
  answer : Except Failure Value
  store : Store
  log : List LogEntry

/-- Finds a module: one that was started, or the first file of its name in
the search paths, started. -/
def resolve (engine : Engine) (read : String → Except Failure String) (paths : List String)
    (name : String) (s : Store) : Found :=
  match s.get? name with
  | some _ => ⟨.ok (.machine name), s, []⟩
  | none =>
    match findCode read name paths with
    | none => ⟨.error (.fault (.noModule name)), s, []⟩
    | some (path, .error e) => ⟨.error (.within ("read " ++ path) e), s, []⟩
    | some (path, .ok code) =>
      let loading : LogEntry := ⟨-4, "loading wasm module", [("name", name), ("path", path)]⟩
      let started := s.instantiate engine name code
      match started.failure with
      | some e => ⟨.error e, started.store, loading :: started.log⟩
      | none => ⟨.ok (.machine name), started.store, loading :: started.log⟩

namespace Instance

/-- A member of a module: a function, or the value of a global. -/
def member (i : Instance) (module name : String) : Except Fault Value :=
  match i.functions.lookup name, i.globals.lookup name with
  | some _, _ => .ok (.proc (.machine module name))
  | none, some g => decode g.type g.word
  | none, none => .error (.noModuleMember module name)

end Instance

/-- Passes arguments as words, from left to right. -/
def encodeArgs (procedure : String) :
    Nat → List ValType → List Value → Except Fault (List UInt64)
  | position, t :: types, v :: args => do
    let w ← encode procedure position t v
    let words ← encodeArgs procedure (position + 1) types args
    return w :: words
  | _, _, _ => .ok []

/-- Takes results back as values, from left to right. -/
def decodeResults : List ValType → List UInt64 → Except Fault (List Value)
  | t :: types, w :: words => do
    let v ← decode t w
    let values ← decodeResults types words
    return v :: values
  | _, _ => .ok []

/-- Several results as one value. -/
def collectResults : List Value → Value
  | [] => .nil
  | [v] => v
  | values => Value.row values

/-- What the function gets: the words of the arguments, if their number
and types are right. -/
def prepare (procedure : String) (f : Function) (args : List Value) :
    Except Fault (List UInt64) := do
  checkArity procedure (.exactly f.params.length) args
  encodeArgs procedure 1 f.params args

/-- What a call comes to, given what the function came to. -/
def conclude (procedure : String) (results : List ValType) :
    Except String (List UInt64) → Except Failure Value
  | .error trap => .error (.within procedure (.other trap))
  | .ok words =>
    match decodeResults results words with
    | .error fault => .error (.fault fault)
    | .ok values => .ok (collectResults values)

/-- Calls a function of an instance; answers what it came to and the
globals after it. -/
def invoke (procedure : String) (f : Function) (globals : Globals) (args : List Value) :
    Except Failure Value × Globals :=
  match prepare procedure f args with
  | .error fault => (.error (.fault fault), globals)
  | .ok words =>
    let (outcome, after) := f.run words globals
    (conclude procedure f.results outcome, after)

end LispShell.Wasm
