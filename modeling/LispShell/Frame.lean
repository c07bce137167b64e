/-
Frames: where symbols are bound.

A frame holds bindings and may have an outer frame, in which symbols are
looked up that it does not bind itself. Frames live in a store and are
named by their place in it; a frame is always made after its outer frame,
so following outer frames goes down and ends at a root.

Evaluation never makes a frame. It binds symbols in the frame it runs in
and reads the whole path.
-/
import LispShell.Value.Basic

namespace LispShell

/-- Bindings of names: each name once. -/
abbrev Bindings := List (String × Value)

namespace Bindings

/-- Binds a name, in place of its old value if it has one. -/
def insert (name : String) (v : Value) : Bindings → Bindings
  | [] => [(name, v)]
  | (n, w) :: rest => if n == name then (n, v) :: rest else (n, w) :: insert name v rest

/-- The value of a name. -/
def get? (name : String) (b : Bindings) : Option Value :=
  b.lookup name

/-- The names that are bound. -/
def names (b : Bindings) : List String :=
  b.map (·.1)

end Bindings

/-- The place of a frame in the store. -/
abbrev FrameId := Nat

/-- One frame. -/
structure Frame where
  bindings : Bindings
  outer : Option FrameId

/-- The store of frames. -/
abbrev Frames := List Frame

/-- Drops texts that are equal to the one before. -/
def dropRepeats : List String → List String
  | a :: b :: rest => if a == b then dropRepeats (b :: rest) else a :: dropRepeats (b :: rest)
  | short => short

/-- Texts in increasing order, each once. -/
def sortedTexts (names : List String) : List String :=
  dropRepeats (names.mergeSort fun a b => decide (a ≤ b))

namespace Frames

/-- A frame and the frames around it, innermost first. -/
def path (fs : Frames) (id : FrameId) : List FrameId :=
  match (fs[id]?).bind (·.outer) with
  | some outer => if outer < id then id :: path fs outer else [id]
  | none => [id]
termination_by id

/-- The bindings of a frame. -/
def bindings (fs : Frames) (id : FrameId) : Bindings :=
  match fs[id]? with
  | some f => f.bindings
  | none => []

/-- The value of a symbol in the nearest frame that binds it. -/
def lookup (fs : Frames) (id : FrameId) (name : String) : Option Value :=
  (fs.path id).findSome? fun f => (fs.bindings f).get? name

/-- The outermost frame. -/
def root (fs : Frames) (id : FrameId) : FrameId :=
  (fs.path id).getLastD id

/-- Every symbol that is visible from a frame, in order. -/
def symbols (fs : Frames) (id : FrameId) : List String :=
  sortedTexts ((fs.path id).flatMap fun f => (fs.bindings f).names)

/-- Binds a symbol in a frame. -/
def bind (fs : Frames) (id : FrameId) (name : String) (v : Value) : Frames :=
  fs.modify id fun f => { f with bindings := f.bindings.insert name v }

/-- Makes an empty frame inside another one. -/
def push (fs : Frames) (outer : FrameId) : Frames × FrameId :=
  (fs ++ [⟨[], some outer⟩], fs.length)

/-- Makes a root frame. -/
def pushRoot (fs : Frames) (b : Bindings) : Frames × FrameId :=
  (fs ++ [⟨b, none⟩], fs.length)

/-- Makes copies of frames, given outermost first, each inside the copy
before it. -/
def copyPath (source : Frames) (outer : Option FrameId) : List FrameId → Frames → Frames × FrameId
  | [], fs => (fs, outer.getD 0)
  | id :: inner, fs =>
    copyPath source (some fs.length) inner (fs ++ [⟨source.bindings id, outer⟩])

/-- Copies a frame together with all frames around it, so that what is
bound in the copy stays there. -/
def copy (fs : Frames) (id : FrameId) : Frames × FrameId :=
  copyPath fs none (fs.path id).reverse fs

end Frames

end LispShell
