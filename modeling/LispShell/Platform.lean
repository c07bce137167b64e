/-
The platform a program runs on: its surroundings, a disk, an engine for
machine code and the modules it started; and the modules that come with
the platform.
-/
import LispShell.Disk
import LispShell.Eval
import LispShell.Module.Surroundings
import LispShell.Wasm.Instance

namespace LispShell

/-- The state of the platform. -/
structure Platform where
  surroundings : Surroundings
  disk : Disk
  engine : Wasm.Engine
  machines : Wasm.Store
  /-- How often each of some resolvers was asked for its module. -/
  tallies : List Nat

namespace Platform

/-- A platform with nothing running. -/
def start (surroundings : Surroundings) (disk : Disk) (engine : Wasm.Engine) : Platform :=
  ⟨surroundings, disk, engine, [], []⟩

/-- Reads a file, from the working directory. -/
def read (p : Platform) (path : String) : Except Failure String :=
  p.disk.read p.surroundings.directory path

-- ================================================================= modules

/-- The names of the modules that come with the platform, in order. -/
def moduleNames : List String :=
  ["math", "os", "strings"]

/-- The members of a module that comes with the platform. -/
def moduleMembers (s : Surroundings) : String → Option (List (String × Value))
  | "math" => some mathMembers
  | "os" => some (s.members)
  | "strings" => some Strings.members
  | _ => none

/-- Resolves the modules that come with the platform. -/
def nativeResolver : Resolver Platform := fun name p =>
  match moduleMembers p.surroundings name with
  | some members => ⟨.ok (.library .blank name members), p, []⟩
  | none => ⟨.error (.fault (.noModule name)), p, []⟩

/-- Resolves modules of machine code in search paths. -/
def machineResolver (paths : List String) : Resolver Platform := fun name p =>
  let found := Wasm.resolve p.engine p.read paths name p.machines
  ⟨found.answer, { p with machines := found.store }, found.log⟩

-- ============================================================== procedures

/-- Ends a script with the result of a procedure. -/
def ofResult : Result → Script Platform
  | .ok v => .finish (.ok v)
  | .error f => .finish (.error (.fault f))

/-- The procedures of the platform's modules. -/
def call? (proc : HostProc) (args : List Value) : Option (Script Platform) :=
  match proc.space with
  | "strings" => (Strings.procedures.lookup proc.name).map fun f => ofResult (f args)
  | "os" =>
    (Surroundings.procedures.lookup proc.name).map fun f =>
      .get fun p _ => ofResult (f p.surroundings args)
  | _ => none

/-- A script that says a procedure does not exist. -/
def unknown (name : String) : Script Platform :=
  .finish (.error (.other ("no procedure " ++ name)))

/-- Calls a function of a module of machine code. -/
def invoke (module name : String) (args : List Value) : Script Platform :=
  .get fun p _ =>
    match p.machines.get? module with
    | none => unknown name
    | some i =>
      match i.functions.lookup name with
      | none => unknown name
      | some f =>
        let (answer, globals) := Wasm.invoke (module ++ "." ++ name) f i.globals args
        .set { p with machines := p.machines.setGlobals module globals } [] (.finish answer)

/-- A member of a module of machine code. -/
def member (module name : String) (p : Platform) : Except Failure Value :=
  match p.machines.get? module with
  | none => .error (.fault (.noModuleMember module name))
  | some i =>
    match i.member module name with
    | .ok v => .ok v
    | .error f => .error (.fault f)

/-- The functions of a module of machine code, in order. -/
def listing (module : String) (p : Platform) : List String :=
  match p.machines.get? module with
  | none => []
  | some i => sortedTexts (i.functions.map (·.1))

/-- The platform as a host without objects of its own. -/
def host : Host Platform where
  call := fun proc args => (call? proc args).getD (unknown proc.name)
  invoke := invoke
  method? := fun _ _ => none
  function? := fun _ => none
  member := member
  listing := listing

end Platform

end LispShell
