/-
Importing modules.

The resolvers are asked in order until one knows the module. One that
fails with a missing module is passed over; any other failure ends it.
What was found is remembered under its name, so a module that was
imported once is not asked for again; a failure is not remembered.

A table of imports holds one module of a name, so the table and the name
are a module's identity (`Resolver.naming`).
-/
import LispShell.Machine

namespace LispShell

/-- A resolver whose modules have their place in an import table as their
identity. -/
def Resolver.naming {σ : Type} (table : Nat) (r : Resolver σ) : Resolver σ :=
  fun name state =>
    let found := r name state
    { found with answer := found.answer.map (Value.identify (.imported table name)) }

namespace Imports

variable {σ : Type}

/-- What asking resolvers in turn comes to: the answer, the host's state,
and the events on the way, last first. -/
structure Search (σ : Type) where
  answer : Except Failure Value
  state : σ
  events : List Event

/-- Asks resolvers in turn, the first of which is number `index`. -/
def ask (name : String) (state : σ) (index : Nat) : List (Resolver σ) → Search σ
  | [] => ⟨.error (.fault (.noModule name)), state, []⟩
  | resolver :: rest =>
    let r := resolver name state
    let events := (r.log.map Event.logged).reverse ++ [.asked index name]
    match r.answer with
    | .ok v => ⟨.ok v, r.state, events⟩
    | .error e =>
      if e.has .missingModule then
        let further := ask name r.state (index + 1) rest
        { further with events := further.events ++ events }
      else ⟨.error e, r.state, events⟩

/-- Remembers an imported module. -/
def remember (i : Imports σ) (name : String) (v : Value) : Imports σ :=
  { i with imported := (name, v) :: i.imported }

/-- Adds a resolver, to be asked last. -/
def addResolver (i : Imports σ) (r : Resolver σ) : Imports σ :=
  { i with resolvers := i.resolvers ++ [r] }

/-- The imports as the table of a given number. -/
def asTable (i : Imports σ) (table : Nat) : Imports σ :=
  { i with resolvers := i.resolvers.map (Resolver.naming table) }

end Imports

namespace Eval

variable {σ : Type}

/-- Imports a module. -/
def importModule (session : Nat) (name : String) : Eval σ Value := do
  let m ← get
  match m.imports.imported.lookup name with
  | some v => return v
  | none =>
    let search := Imports.ask name m.host 0 m.imports.resolvers
    modify fun m => { m with host := search.state, journal := search.events ++ m.journal }
    match search.answer with
    | .error e => fail e
    | .ok v =>
      let v ← settle session v
      modify fun m => { m with imports := m.imports.remember name v }
      return v

end Eval

end LispShell
