/-
Several callers at one store.

Interpreters that share a store ask it for modules at the same time. What
a caller does goes in steps, and any other caller may come between two of
them: it looks for the module in the store, reads the search paths one
after the other, and starts the code it has found. Looking and starting
hold the store while they last. Reading does not, so what was missing when
a caller looked may be there when it starts. A caller who brings the code
has only the last step to do.

The engine and the files may be others at every step. A store only gets
more modules, so a module is told from all others by how many were started
up to it; that is its `Handle`.
-/
import LispShell.Wasm.Instance

namespace LispShell.Wasm

/-- A module at work, as its callers hold it: its name, and the how manieth
of its store it is. -/
structure Handle where
  name : String
  number : Nat
  deriving DecidableEq

namespace Store

/-- The names of the instances, the last one first. -/
def names (s : Store) : List String :=
  s.map (·.1)

/-- The handle of the instance that a name stands for. The number is zero
if there is none. -/
def handle (s : Store) (name : String) : Handle :=
  ⟨name, (s.names.dropWhile (· != name)).length⟩

end Store

/-- The outside as a step finds it: the engine, and the files. -/
structure Outside where
  engine : Engine
  read : String → Except Failure String

/-- How far a caller is. -/
inductive Stage where
  /-- About to look for the module in the store. -/
  | look
  /-- About to read the first of the directories. -/
  | search (directories : List String)
  /-- About to start the code. -/
  | start (code : String)
  | done (answer : Except Failure Handle)

/-- What a step comes to: how far the caller is then, the store after it,
and what is logged. -/
structure Progress where
  stage : Stage
  store : Store
  log : List LogEntry

/-- The next step of a caller who wants the module of a name. -/
def Stage.next (o : Outside) (paths : List String) (name : String) (s : Store) : Stage → Progress
  | .look =>
    match s.get? name with
    | some _ => ⟨.done (.ok (s.handle name)), s, []⟩
    | none => ⟨.search paths, s, []⟩
  | .search [] => ⟨.done (.error (.fault (.noModule name))), s, []⟩
  | .search (directory :: rest) =>
    let path := Path.join directory (name ++ ".wasm")
    match o.read path with
    | .ok code =>
      ⟨.start code, s, [⟨-4, "loading wasm module", [("name", name), ("path", path)]⟩]⟩
    | .error e =>
      if e.isMissingFile then ⟨.search rest, s, []⟩
      else ⟨.done (.error (.within ("read " ++ path) e)), s, []⟩
  | .start code =>
    let started := s.instantiate o.engine name code
    match started.failure with
    | some e => ⟨.done (.error e), started.store, started.log⟩
    | none => ⟨.done (.ok (started.store.handle name)), started.store, started.log⟩
  | .done answer => ⟨.done answer, s, []⟩

/-- Steps of one caller with nobody between them. -/
def Stage.steps (o : Outside) (paths : List String) (name : String) :
    Nat → Stage → Store → Progress
  | 0, stage, s => ⟨stage, s, []⟩
  | n + 1, stage, s =>
    let first := stage.next o paths name s
    let others := steps o paths name n first.stage first.store
    ⟨others.stage, others.store, first.log ++ others.log⟩

/-- A caller: the interpreter that asks, the name it asks for, and how far
it is. -/
structure Caller where
  interpreter : Nat
  name : String
  stage : Stage

/-- A store, its callers so far, and what was logged. -/
structure Sharing where
  store : Store
  callers : List Caller
  log : List LogEntry

/-- Something that happens at a shared store. -/
inductive Action where
  /-- An interpreter asks for a module. -/
  | resolve (interpreter : Nat) (name : String)
  /-- An interpreter asks for a module and brings its code. -/
  | instantiate (interpreter : Nat) (name code : String)
  /-- The caller at a place takes its next step. -/
  | proceed (place : Nat) (outside : Outside)
  /-- A function of a module sets its globals. -/
  | work (name : String) (globals : Globals)

namespace Sharing

/-- One more caller. -/
def add (s : Sharing) (caller : Caller) : Sharing :=
  { s with callers := s.callers ++ [caller] }

/-- What an action makes of a shared store. A caller that is done, or a
place without one, takes no step. -/
def act (paths : List String) (s : Sharing) : Action → Sharing
  | .resolve interpreter name => s.add ⟨interpreter, name, .look⟩
  | .instantiate interpreter name code => s.add ⟨interpreter, name, .start code⟩
  | .proceed place outside =>
    match s.callers[place]? with
    | none => s
    | some caller =>
      let step := caller.stage.next outside paths caller.name s.store
      ⟨step.store, s.callers.set place { caller with stage := step.stage }, s.log ++ step.log⟩
  | .work name globals => { s with store := s.store.setGlobals name globals }

/-- What actions one after the other make of a store with nothing in it. -/
def run (paths : List String) (actions : List Action) : Sharing :=
  actions.foldl (act paths) ⟨[], [], []⟩

end Sharing

end LispShell.Wasm
