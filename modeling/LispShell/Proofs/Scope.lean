/-
A program sees the frames around it as one map from names to values.

Two evaluations of the same code start from machines that differ only in
their frames: the chains may have different lengths and may spread the
bindings differently, and only the look-ups from the two frames agree. A
`define` may then hide an outer binding on one side and replace it on the
other. The evaluations still end alike, and the look-ups agree again
(`eval_of_same_lookups`). An empty frame inside a frame and a copy of it
are two such frames.

The simulation is along `SeenAlike`: the machines are the same but for
the frames and for what the journal says about frames. The look-ups give
the very same values, so what is stored in one of them in place is seen on
both sides.

# Hosts

A procedure of the host can name a frame and read or write it whatever
frame it was called in. A host that does so sees through to the chain
(`counting_tells_copies`); that a host does not is `Host.Confined`.
-/
import LispShell.Desk
import LispShell.Proofs.Simulation
import LispShell.Sample

namespace LispShell

variable {σ : Type}

-- ====================================================== hosts

/-- A script that reads and writes frames only through code that it
evaluates where it was called. -/
def Script.Confined : Script σ → Prop
  | .finish _ => True
  | .eval _ next => ∀ answer, (next answer).Confined
  | .get next => ∀ state cells, (next state cells).Confined
  | .set _ _ next => next.Confined
  | .lookup .. | .bind .. => False

/-- A host whose procedures name no frame. -/
structure Host.Confined (host : Host σ) : Prop where
  call : ∀ p args, (host.call p args).Confined
  invoke : ∀ module name args, (host.invoke module name args).Confined

/-- A confined script sees only the state of the host and the cells. -/
theorem Script.Confined.alike {R : Machine σ → Machine σ → Prop} {script : Script σ}
    (h : script.Confined) (hsame : ∀ {m m'}, R m m' → m'.host = m.host ∧ m'.cells = m.cells)
    (hset : ∀ {m m'} state, R m m' → R { m with host := state } { m' with host := state })
    (hstore : ∀ stored, Eval.Related R (Eval.store stored) (Eval.store stored)) :
    Script.Alike R script script := by
  induction script with
  | finish answer => exact .finish answer
  | eval code next ih => exact .eval code fun answer => ih answer (h answer)
  | get next ih =>
    refine .get fun m m' hm => ?_
    rw [(hsame hm).1, (hsame hm).2]
    exact ih m.host m.cells (h m.host m.cells)
  | set state stored next ih => exact .set (fun _ _ hm => hset state hm) (hstore stored) (ih h)
  | lookup frame name next ih => exact h.elim
  | bind frame name value next ih => exact h.elim

theorem Platform.ofResult_confined (r : Result) : (Platform.ofResult r).Confined := by
  cases r with
  | ok v => trivial
  | error f => trivial

/-- The platform names no frame. -/
theorem Platform.host_confined : Platform.host.Confined where
  call proc args := by
    show ((Platform.call? proc args).getD (Platform.unknown proc.name)).Confined
    cases h : Platform.call? proc args with
    | none => trivial
    | some script =>
      unfold Platform.call? at h
      split at h
      · obtain ⟨f, -, rfl⟩ := Option.map_eq_some_iff.1 h
        exact Platform.ofResult_confined (f args)
      · obtain ⟨f, -, rfl⟩ := Option.map_eq_some_iff.1 h
        exact fun p _ => Platform.ofResult_confined (f p.surroundings args)
      · cases h
  invoke module name args := by
    intro p _
    dsimp only
    split
    · trivial
    · split
      · trivial
      · trivial

-- ====================================================== what is seen

/-- An event without what it says about frames. -/
def Event.unplaced : Event → Event
  | .bound _ name value => .bound 0 name value
  | .queried _ imported cells => .queried [] imported cells
  | e => e

/-- What was printed says nothing about frames. -/
theorem Event.printedText_unplaced (events : List Event) :
    Event.printedText (events.map Event.unplaced) = Event.printedText events := by
  induction events with
  | nil => rfl
  | cons e rest ih =>
    cases e with
    | printed line => exact congrArg (line ++ "\n" ++ ·) ih
    | _ => exact ih

/-- Machines that are the same but for their frames, which look the same
from one frame each. -/
structure Machine.SeenAlike (frame frame' : FrameId) (m m' : Machine σ) : Prop where
  visible : ∀ name, m'.frames.lookup frame' name = m.frames.lookup frame name
  inside : frame < m.frames.length ∧ frame' < m'.frames.length
  imports : m'.imports = m.imports
  host : m'.host = m.host
  cells : m'.cells = m.cells
  made : m'.made = m.made
  queries : m'.queries = m.queries
  journal : m'.journal.map Event.unplaced = m.journal.map Event.unplaced

namespace Machine.SeenAlike

variable {frame frame' : FrameId} {m m' : Machine σ}

/-- The same was printed. -/
theorem printed (h : SeenAlike frame frame' m m') :
    Event.printedText m'.journal.reverse = Event.printedText m.journal.reverse := by
  rw [← Event.printedText_unplaced, ← Event.printedText_unplaced m.journal.reverse,
    List.map_reverse, List.map_reverse, h.journal]

theorem note (h : SeenAlike frame frame' m m') {e e' : Event} (he : e'.unplaced = e.unplaced) :
    SeenAlike frame frame' { m with journal := e :: m.journal }
      { m' with journal := e' :: m'.journal } :=
  { h with journal := by rw [List.map_cons, List.map_cons, he, h.journal] }

/-- A binding goes to the inner frame on both sides, whatever is around
it. -/
theorem define (h : SeenAlike frame frame' m m') (name : String) (v : Value) :
    SeenAlike frame frame'
      { m with frames := m.frames.bind frame name v, journal := .bound frame name v :: m.journal }
      { m' with
        frames := m'.frames.bind frame' name v
        journal := .bound frame' name v :: m'.journal } where
  visible key := by
    show (m'.frames.bind frame' name v).lookup frame' key
      = (m.frames.bind frame name v).lookup frame key
    rw [Frames.lookup_bind h.inside.1, Frames.lookup_bind h.inside.2, h.visible]
  inside := by
    simp only [Frames.length_bind]
    exact h.inside
  imports := h.imports
  host := h.host
  cells := h.cells
  made := h.made
  queries := h.queries
  journal := (h.note rfl).journal

/-- The same is stored on both sides. -/
theorem store_related (stored : Cells) :
    Eval.Related (SeenAlike (σ := σ) frame frame') (Eval.store stored) (Eval.store stored) := by
  unfold Eval.store
  split
  · exact .pure ()
  · exact .modify fun m m' h => { h.note rfl with cells := congrArg (_ ++ ·) h.cells }

/-- The same question on both sides. -/
theorem asked (h : SeenAlike frame frame' m m') :
    SeenAlike frame frame' (Eval.asked m) (Eval.asked m') := by
  have hevent : (Event.queried m'.frames m'.imports.imported m'.cells).unplaced
      = (Event.queried m.frames m.imports.imported m.cells).unplaced := by
    rw [h.imports, h.cells]
    rfl
  exact { h.note hevent with queries := congrArg (· + 1) h.queries }

end Machine.SeenAlike

/-- Nothing that a confined host or the evaluator does tells machines apart
that look alike. -/
theorem Host.Confined.simulation {host : Host σ} (hhost : host.Confined) (site : Site)
    (frame frame' : FrameId) :
    Simulation host { site with frame := frame } { site with frame := frame' }
      (Machine.SeenAlike frame frame') where
  session := rfl
  checkpoint := .checkpoint site.patience (fun h => h.queries) fun h => h.asked
  record e := .modify fun _ _ h => h.note rfl
  cells h := h.cells
  store := Machine.SeenAlike.store_related
  made h := h.made
  count _ h := { h with made := rfl }
  visible h := h.visible
  define name v := .modify fun _ _ h => h.define name v
  importModule name := by
    refine .importModule (fun h => h.imports) (fun h => h.host)
      (.newMark (fun h => h.made) (fun h => h.cells) fun _ h => { h with made := rfl }) ?_ ?_
    · intro m m' state events h
      refine { h with host := rfl, journal := ?_ }
      rw [List.map_append, List.map_append, h.journal]
    · intro m m' v h
      exact { h with imports := by rw [h.imports] }
  found h module name := by rw [h.host]
  listed h module := by rw [h.host]
  call p args := (hhost.call p args).alike (fun h => ⟨h.host, h.cells⟩)
    (fun _ h => { h with host := rfl }) Machine.SeenAlike.store_related
  invoke module name args := (hhost.invoke module name args).alike (fun h => ⟨h.host, h.cells⟩)
    (fun _ h => { h with host := rfl }) Machine.SeenAlike.store_related

-- ====================================================== evaluations

/-- What a program can see of two machines is the same: what was printed,
what is imported, what is bound, and what was stored in it. -/
structure Machine.SameView (frame frame' : FrameId) (m m' : Machine σ) : Prop where
  visible : ∀ name, m'.frames.lookup frame' name = m.frames.lookup frame name
  cells : m'.cells = m.cells
  imports : m'.imports = m.imports
  printed : Event.printedText m'.journal.reverse = Event.printedText m.journal.reverse

/-- Machines that look alike show a program the same. -/
theorem Machine.SeenAlike.sameView {frame frame' : FrameId} {m m' : Machine σ}
    (h : SeenAlike frame frame' m m') : SameView frame frame' m m' :=
  ⟨h.visible, h.cells, h.imports, h.printed⟩

namespace Eval

/-- Evaluates code in a frame of a store; all else is as in the machine. -/
def evalIn (host : Host σ) (site : Site) (depth : Nat) (code : Code) (m : Machine σ)
    (fs : Frames) (frame : FrameId) : Outcome σ Value :=
  eval host { site with frame := frame } depth code { m with frames := fs }

/-- An evaluation in either of two frames that agree in every look-up. -/
theorem evalIn_alike {host : Host σ} (hhost : host.Confined) (site : Site) (depth : Nat)
    (code : Code) (m : Machine σ) {fs fs' : Frames} {frame frame' : FrameId}
    (hframe : frame < fs.length) (hframe' : frame' < fs'.length)
    (hsame : ∀ name, fs'.lookup frame' name = fs.lookup frame name) :
    (evalIn host site depth code m fs frame).Alike (Machine.SameView frame frame')
      (evalIn host site depth code m fs' frame') := by
  have hstart : Machine.SeenAlike frame frame' { m with frames := fs } { m with frames := fs' } :=
    ⟨hsame, ⟨hframe, hframe'⟩, rfl, rfl, rfl, rfl, rfl, rfl⟩
  have hend := (hhost.simulation site frame frame').eval depth code _ _ hstart
  exact hend.mono fun h => h.sameView

/-- Frames that agree in every look-up are one and the same to a program
whose host names no frame, so it cannot tell whether it runs in a frame, in
an empty frame inside it or in a copy of it. -/
theorem eval_of_same_lookups {host : Host σ} (hhost : host.Confined) (site : Site) (depth : Nat)
    (code : Code) (m : Machine σ) (fs : Frames) (frame : FrameId) (hframe : frame < fs.length) :
    (∀ (fs' : Frames) (frame' : FrameId), frame' < fs'.length →
      (∀ name, fs'.lookup frame' name = fs.lookup frame name) →
        (evalIn host site depth code m fs frame).Alike (Machine.SameView frame frame')
          (evalIn host site depth code m fs' frame'))
    ∧ (evalIn host site depth code m fs frame).Alike
        (Machine.SameView frame (fs.push frame).2)
        (evalIn host site depth code m (fs.push frame).1 (fs.push frame).2)
    ∧ (evalIn host site depth code m fs frame).Alike
        (Machine.SameView frame (fs.copy frame).2)
        (evalIn host site depth code m (fs.copy frame).1 (fs.copy frame).2) := by
  refine ⟨fun fs' frame' hframe' hsame => ?_, ?_, ?_⟩
  · exact evalIn_alike hhost site depth code m hframe hframe' hsame
  · have hinside : (fs.push frame).2 < (fs.push frame).1.length := by simp [Frames.push]
    exact evalIn_alike hhost site depth code m hframe hinside (Frames.lookup_push hframe)
  · obtain ⟨hhung, hlookup⟩ := Frames.copy_spec fs frame
    exact evalIn_alike hhost site depth code m hframe hhung.inside hlookup

/-- Two frames, the inner of which hides a binding of the outer. -/
def layered : Frames :=
  [⟨[("x", .int 1), ("y", .int 2)], none⟩, ⟨[("x", .int 5)], some 0⟩]

/-- One frame with what can be seen of them. -/
def flat : Frames :=
  [⟨[("y", .int 2), ("x", .int 5)], none⟩]

/-- Both give the same look-ups. -/
theorem lookup_flat (name : String) : flat.lookup 0 name = layered.lookup 1 name := by
  have hflat : flat.lookup 0 name = (flat.bindings 0).get? name := Frames.lookup_of_root rfl name
  have hinner : layered.lookup 1 name
      = ((layered.bindings 1).get? name).or (layered.lookup 0 name) :=
    Frames.lookup_of_outer rfl (by decide) name
  have houter : layered.lookup 0 name = (layered.bindings 0).get? name :=
    Frames.lookup_of_root rfl name
  rw [hflat, hinner, houter]
  show Bindings.get? name [("y", .int 2), ("x", .int 5)]
    = (Bindings.get? name [("x", .int 5)]).or (Bindings.get? name [("x", .int 1), ("y", .int 2)])
  simp only [Bindings.get?_cons]
  by_cases hx : name = "x"
  · rw [hx]
    rfl
  · simp [hx, Bindings.get?]

/-- A machine in which nothing happened yet. -/
def idle : Machine Platform :=
  (Desk.empty Sample.platform).machine 0

/-- `(define x 7)` hides the outer binding further in the one store and
replaces the only one in the other. -/
theorem eval_of_same_lookups_layered :
    Platform.host.Confined
    ∧ (∀ name, flat.lookup 0 name = layered.lookup 1 name)
    ∧ (∃ m, evalIn Platform.host ⟨0, 0, none⟩ 2
        (.list .blank [.symbol "define", .symbol "x", .int 7]) idle flat 0
          = .done (.ok (.int 7)) m)
    ∧ (evalIn Platform.host ⟨0, 0, none⟩ 2
        (.list .blank [.symbol "define", .symbol "x", .int 7]) idle layered 1).Alike
        (Machine.SameView 1 0)
        (evalIn Platform.host ⟨0, 0, none⟩ 2
          (.list .blank [.symbol "define", .symbol "x", .int 7]) idle flat 0) :=
  ⟨Platform.host_confined, lookup_flat, ⟨_, rfl⟩,
    (eval_of_same_lookups Platform.host_confined ⟨0, 0, none⟩ 2 _ idle layered 1 (by decide)).1
      flat 0 (by decide) lookup_flat⟩

/-- A frame with a counter and the sample procedure that adds one to it, in
the first frame of the store, wherever it is called. -/
def counting : Frames :=
  [⟨[("n", .int 0), ("inc", Sample.procedure "inc" false)], none⟩]

/-- What a name is bound to at the end of an evaluation, as it prints. -/
def shows (x : Outcome σ Value) (frame : FrameId) (name : String) : Option String :=
  match x with
  | .done _ m => (m.frames.lookup frame name).map Value.repr
  | .spent => none

/-- Evaluations that end alike show the same. -/
theorem shows_of_alike {x y : Outcome σ Value} {frame frame' : FrameId}
    (h : x.Alike (Machine.SameView frame frame') y) (name : String) :
    shows y frame' name = shows x frame name := by
  cases h with
  | done _ hview => exact congrArg (Option.map Value.repr) (hview.visible name)
  | spent => rfl

/-- Some hosts do tell frames apart that agree in every look-up: `(inc)`
counts for the one who calls it in the frame itself and not for the one who
calls it in a copy. -/
theorem counting_tells_copies :
    ¬ ∀ (host : Host Platform) (site : Site) (depth : Nat) (code : Code) (m : Machine Platform)
        (fs fs' : Frames) (frame frame' : FrameId), frame < fs.length → frame' < fs'.length →
      (∀ name, fs'.lookup frame' name = fs.lookup frame name) →
      (evalIn host site depth code m fs frame).Alike (Machine.SameView frame frame')
        (evalIn host site depth code m fs' frame') := by
  intro hall
  obtain ⟨hhung, hlookup⟩ := Frames.copy_spec counting 0
  have halike := hall Sample.host ⟨0, 0, none⟩ 2 (.list .blank [.symbol "inc"]) idle counting
    (counting.copy 0).1 0 (counting.copy 0).2 (by decide) hhung.inside hlookup
  exact absurd (shows_of_alike halike "n") (by decide +kernel)

end Eval

end LispShell
