/-
Several sessions side by side.

A desk holds the frames of all sessions, the import tables they use, the
sessions themselves, the one host they all run in, and what was stored in
place. A session has a root frame of its own. A fork of a session starts
with a copy of its frames and shares its import table; a new session
starts with the frame and the table it is given. A copy of a frame binds
the same values, so a wide integer that is set in one session is set for
all that hold it.

A computation is run for one session at a time: it gets a machine made of
the desk's frames, host and cells and of that session's table and count,
and what it leaves is put back (`run`).
-/
import LispShell.Program

namespace LispShell

/-- A session: its root frame, the place of its import table, and how many
values with an identity it made. -/
structure Session where
  root : FrameId
  table : Nat
  made : Nat

/-- Sessions and what they share. -/
structure Desk (σ : Type) where
  frames : Frames
  tables : List (Imports σ)
  sessions : List Session
  host : σ
  cells : Cells

/-- What running a computation for a session comes to. -/
structure Run (σ α : Type) where
  answer : Except Failure α
  /-- What happened, first things first. -/
  events : List Event
  desk : Desk σ

namespace Desk

variable {σ α : Type}

/-- A desk without sessions. -/
def empty (host : σ) : Desk σ :=
  ⟨[], [], [], host, []⟩

/-- The session at a place; an empty one if there is none. -/
def session (d : Desk σ) (s : Nat) : Session :=
  d.sessions.getD s ⟨0, 0, 0⟩

/-- The import table of a session. -/
def table (d : Desk σ) (s : Nat) : Imports σ :=
  d.tables.getD (d.session s).table ⟨[], []⟩

/-- The machine that a computation for a session starts with. -/
def machine (d : Desk σ) (s : Nat) : Machine σ where
  frames := d.frames
  imports := d.table s
  host := d.host
  cells := d.cells
  made := (d.session s).made
  queries := 0
  journal := []

/-- Puts back what a computation for a session left. -/
def putBack (d : Desk σ) (s : Nat) (m : Machine σ) : Desk σ where
  frames := m.frames
  tables := d.tables.set (d.session s).table m.imports
  sessions := d.sessions.modify s fun x => { x with made := m.made }
  host := m.host
  cells := m.cells

/-- Runs a computation for a session. There is no answer if the depth it
was given did not suffice. -/
def run (d : Desk σ) (s : Nat) (x : Eval σ α) : Option (Run σ α) :=
  match x (d.machine s) with
  | .done answer m => some ⟨answer, m.journal.reverse, d.putBack s m⟩
  | .spent => none

/-- Adds a session with a root frame and an import table of its own. -/
def addSession (d : Desk σ) (root : Bindings) (imports : Imports σ) : Desk σ :=
  let (frames, id) := d.frames.pushRoot root
  { d with
    frames
    tables := d.tables ++ [imports.asTable d.tables.length]
    sessions := d.sessions ++ [⟨id, d.tables.length, 0⟩] }

/-- Adds a session that starts as a copy of another one and shares what
that imported. -/
def fork (d : Desk σ) (s : Nat) : Desk σ :=
  let source := d.session s
  let (frames, id) := d.frames.copy source.root
  { d with frames, sessions := d.sessions ++ [⟨id, source.table, 0⟩] }

/-- Adds a resolver to the import table of a session. -/
def addResolver (d : Desk σ) (s : Nat) (r : Resolver σ) : Desk σ :=
  let table := (d.session s).table
  { d with tables := d.tables.modify table fun t => t.addResolver (r.naming table) }

/-- Binds a symbol in a frame. -/
def bind (d : Desk σ) (frame : FrameId) (name : String) (v : Value) : Desk σ :=
  { d with frames := d.frames.bind frame name v }

end Desk

/-- The interpreter of a session: it evaluates in the session's root
frame. -/
def Desk.interpreter {σ : Type} (d : Desk σ) (host : Host σ) (depth : Nat) (patience : Option Nat)
    (s : Nat) : Interpreter σ :=
  ⟨host, ⟨s, (d.session s).root, patience⟩, depth⟩

/-- What the `print` procedure wrote. -/
def Event.printedText : List Event → String
  | [] => ""
  | .printed line :: rest => line ++ "\n" ++ printedText rest
  | _ :: rest => printedText rest

/-- What the shell wrote. -/
def Event.writtenText : List Event → String
  | [] => ""
  | .wrote text :: rest => text ++ writtenText rest
  | _ :: rest => writtenText rest

/-- Everything that goes to the output, in order. -/
def Event.outputText : List Event → String
  | [] => ""
  | .printed line :: rest => line ++ "\n" ++ outputText rest
  | .wrote text :: rest => text ++ outputText rest
  | _ :: rest => outputText rest

end LispShell
