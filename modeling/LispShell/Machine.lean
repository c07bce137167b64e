/-
The state of a running evaluation, and computations over it.

A `Machine` holds the frames, what was imported, the state of the host,
what was stored in place, how many values with an identity were made, how
often it was asked whether to go on, and a journal of everything that
happened: each binding, each line printed, each resolver asked, each
procedure called, each time something was stored in place, each line
logged, what the shell wrote about it, and each time it was asked whether
to go on, with what was bound, imported and stored then.

An `Eval` is a computation over a machine. It ends with a value or a
failure, or it is `spent`: the depth it was given did not suffice, which
says nothing about the program. What ran before a failure stays done.
-/
import LispShell.Fault
import LispShell.Frame
import LispShell.Value.Cells

namespace LispShell

/-- A line for the log: how grave it is, what it says, and details. -/
structure LogEntry where
  level : Int
  text : String
  details : List (String × String)

/-- Something that happened. -/
inductive Event where
  | bound (frame : FrameId) (name : String) (value : Value)
  /-- A line of the `print` procedure. -/
  | printed (line : String)
  /-- Text of the shell, such as a result. -/
  | wrote (text : String)
  | asked (resolver : Nat) (module : String)
  | called (procedure : Proc) (args : List Value)
  /-- Contents that were stored in place. -/
  | stored (cells : Cells)
  | logged (entry : LogEntry)
  /-- The question whether to go on, and the state it was asked in. -/
  | queried (frames : Frames) (imported : List (String × Value)) (cells : Cells)

/-- What a resolver says about a module, with the host's state after it
and what it had to log. -/
structure Resolution (σ : Type) where
  answer : Except Failure Value
  state : σ
  log : List LogEntry

/-- A resolver finds modules by name. One that does not know a name fails
with a missing module. -/
abbrev Resolver (σ : Type) := String → σ → Resolution σ

/-- The resolvers in the order they are asked, and what was imported. -/
structure Imports (σ : Type) where
  resolvers : List (Resolver σ)
  imported : List (String × Value)

/-- The state of a running evaluation. -/
structure Machine (σ : Type) where
  frames : Frames
  imports : Imports σ
  host : σ
  /-- What was stored in place. -/
  cells : Cells
  /-- How many values with an identity were made. -/
  made : Nat
  /-- How often the machine asked whether to go on. -/
  queries : Nat
  /-- What happened, last first. -/
  journal : List Event

/-- The number of the next identity that a session gives out. Nothing was
made with it, and nothing is stored under it. -/
def Machine.serial {σ : Type} (m : Machine σ) (session : Nat) : Nat :=
  m.made + m.cells.after session

/-- How a computation ends. -/
inductive Outcome (σ α : Type) where
  | done (answer : Except Failure α) (machine : Machine σ)
  | spent

/-- A computation over a machine. -/
def Eval (σ α : Type) := Machine σ → Outcome σ α

namespace Eval

variable {σ α β : Type}

/-- Ends with a value. -/
protected def pure (a : α) : Eval σ α :=
  fun m => .done (.ok a) m

/-- Runs a computation and goes on with its value. -/
protected def bind (x : Eval σ α) (f : α → Eval σ β) : Eval σ β :=
  fun m => match x m with
    | .done (.ok a) m => f a m
    | .done (.error e) m => .done (.error e) m
    | .spent => .spent

instance : Monad (Eval σ) where
  pure := Eval.pure
  bind := Eval.bind

/-- Ends with a failure. -/
def fail (e : Failure) : Eval σ α :=
  fun m => .done (.error e) m

/-- Ends with a fault. -/
def fault (f : Fault) : Eval σ α :=
  fail (.fault f)

/-- Ends without an answer. -/
def spent : Eval σ α :=
  fun _ => .spent

/-- Ends as a result says. -/
def ofExcept : Except Failure α → Eval σ α
  | .ok a => Eval.pure a
  | .error e => fail e

/-- Ends as the result of a standard procedure says. -/
def ofResult : Except Fault α → Eval σ α
  | .ok a => Eval.pure a
  | .error f => fault f

/-- The machine as it is. -/
def get : Eval σ (Machine σ) :=
  fun m => .done (.ok m) m

/-- Changes the machine. -/
def modify (f : Machine σ → Machine σ) : Eval σ Unit :=
  fun m => .done (.ok ()) (f m)

/-- Makes a failure a value. -/
def attempt (x : Eval σ α) : Eval σ (Except Failure α) :=
  fun m => match x m with
    | .done answer m => .done (.ok answer) m
    | .spent => .spent

/-- Changes the failure of a computation. -/
def mapFailure (f : Failure → Failure) (x : Eval σ α) : Eval σ α :=
  fun m => match x m with
    | .done (.error e) m => .done (.error (f e)) m
    | other => other

/-- Writes an event into the journal. -/
def record (e : Event) : Eval σ Unit :=
  modify fun m => { m with journal := e :: m.journal }

/-- Runs computations from left to right and collects their values; the
first failure ends it. -/
def collect (f : α → Eval σ β) : List α → Eval σ (List β)
  | [] => Eval.pure []
  | a :: rest => Eval.bind (f a) fun b => Eval.bind (collect f rest) fun bs => Eval.pure (b :: bs)

/-- Binds a symbol in a frame. -/
def define (frame : FrameId) (name : String) (v : Value) : Eval σ Unit :=
  modify fun m => { m with
    frames := m.frames.bind frame name v
    journal := .bound frame name v :: m.journal }

/-- Stores contents in place, if there are any. -/
def store : Cells → Eval σ Unit
  | [] => Eval.pure ()
  | cells => modify fun m => { m with
      cells := cells ++ m.cells
      journal := .stored cells :: m.journal }

/-- Asks whether to go on. `patience` says how often the answer is yes;
without it the answer is always yes. -/
def checkpoint (patience : Option Nat) : Eval σ Unit :=
  fun m =>
    let next := { m with
      queries := m.queries + 1
      journal := .queried m.frames m.imports.imported m.cells :: m.journal }
    match patience with
    | some n => if m.queries < n then .done (.ok ()) next else .done (.error .canceled) next
    | none => .done (.ok ()) next

/-- A new identity. -/
def newMark (session : Nat) : Eval σ Mark :=
  fun m => .done (.ok (.made session (m.serial session))) { m with made := m.made + 1 }

/-- Gives a new value its identity. -/
def settle (session : Nat) (v : Value) : Eval σ Value :=
  if v.isNew then do
    let mark ← newMark session
    return v.identify mark
  else Eval.pure v

/-- Gives every list and every wide integer of a form its identity. -/
def stamp (session : Nat) (form : Form) : Eval σ Code :=
  fun m =>
    let (code, made) := form.stamp session (m.serial session)
    .done (.ok code) { m with made }

end Eval

end LispShell
