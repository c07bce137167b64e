/-
One session at two desks.

The same call is run for the same session at two desks, which differ in
what was imported there, in the frames of other sessions and in the state
of the host. `Tandem` says what the two runs keep in common: from the
session's frame everything looks the same, the same was stored in place
and printed, and on both sides symbols were bound in that frame and nowhere
else (`Within`).
`Host.Steady.simulation` is the step from there to whole calls.

# What is assumed of the host

A host has a state, and modules and procedures may look at it and change
it. `ok` says which states there are, and `Host.Steady` that they all look
the same: whatever is done in one of them is done in any other, with the
same answers, and leads to one of them again. The platform is such a host
if its modules of machine code keep their globals and are at work before
the sessions are (`Platform.host_steady`).
-/
import LispShell.Platform
import LispShell.Proofs.Imports
import LispShell.Proofs.Simulation

namespace LispShell

variable {σ : Type} {ok : σ → Prop}

-- ====================================================== hosts

/-- Two scripts that name no frame and do the same, whichever state the
host is in. -/
inductive Script.Steady (ok : σ → Prop) : Script σ → Script σ → Prop where
  | finish (answer : Except Failure Value) : Steady ok (.finish answer) (.finish answer)
  | eval (code : Code) {next next' : Except Failure Value → Script σ}
      (hnext : ∀ answer, Steady ok (next answer) (next' answer)) :
      Steady ok (.eval code next) (.eval code next')
  | get {next next' : σ → Cells → Script σ}
      (hnext : ∀ {state state'}, ok state → ok state' → ∀ cells,
        Steady ok (next state cells) (next' state' cells)) : Steady ok (.get next) (.get next')
  | set {state state' : σ} {stored : Cells} {next next' : Script σ} (hstate : ok state)
      (hstate' : ok state') (hnext : Steady ok next next') :
      Steady ok (.set state stored next) (.set state' stored next')

/-- A host without a state that shows. -/
structure Host.Steady (ok : σ → Prop) (host : Host σ) : Prop where
  call : ∀ p args, Script.Steady ok (host.call p args) (host.call p args)
  invoke : ∀ module name args,
    Script.Steady ok (host.invoke module name args) (host.invoke module name args)
  member : ∀ module name {state state'}, ok state → ok state' →
    host.member module name state' = host.member module name state
  listing : ∀ module {state state'}, ok state → ok state' →
    host.listing module state' = host.listing module state

-- ====================================================== frames

/-- Frames that differ at most in what is bound in one of them. -/
structure Frames.OnlyAt (frame : FrameId) (fs fs' : Frames) : Prop where
  length : fs'.length = fs.length
  outer : ∀ g, fs'.outer? g = fs.outer? g
  bindings : ∀ g, g ≠ frame → fs'.bindings g = fs.bindings g

namespace Frames.OnlyAt

variable {frame : FrameId} {fs fs' : Frames}

/-- Frames that are the same. -/
theorem refl (frame : FrameId) (fs : Frames) : OnlyAt frame fs fs :=
  ⟨rfl, fun _ => rfl, fun _ _ => rfl⟩

/-- Binding a symbol there. -/
theorem bind (h : OnlyAt frame fs fs') (name : String) (v : Value) :
    OnlyAt frame fs (fs'.bind frame name v) where
  length := (length_bind ..).trans h.length
  outer g := (outer?_bind ..).trans (h.outer g)
  bindings g hg := (bindings_bind_ne fs' name v hg).trans (h.bindings g hg)

/-- No path changes. -/
theorem path (h : OnlyAt frame fs fs') (g : FrameId) : fs'.path g = fs.path g :=
  path_congr fun g _ => h.outer g

/-- A frame whose path does not go there looks the same. -/
theorem lookup (h : OnlyAt frame fs fs') {g : FrameId} (hg : frame ∉ fs.path g)
    (name : String) : fs'.lookup g name = fs.lookup g name := by
  refine lookup_congr (h.path g) (fun f hf => h.bindings f ?_) name
  rintro rfl
  exact hg hf

end Frames.OnlyAt

-- ====================================================== two runs for a session

/-- What a run for a session can make of the frames `fs`, its imports and
the host: it binds only in its own frame. -/
structure Within (ok : σ → Prop) (frame : FrameId) (resolvers : List (Resolver σ)) (fs : Frames)
    (frames : Frames) (imports : Imports σ) (host : σ) : Prop where
  only : Frames.OnlyAt frame fs frames
  resolvers : imports.resolvers = resolvers
  sound : imports.Sound ok
  ok : ok host

/-- The same session at two desks. -/
structure Machine.Tandem (ok : σ → Prop) (frame : FrameId) (resolvers : List (Resolver σ))
    (fs fs' : Frames) (m m' : Machine σ) : Prop where
  left : Within ok frame resolvers fs m.frames m.imports m.host
  right : Within ok frame resolvers fs' m'.frames m'.imports m'.host
  visible : ∀ name, m'.frames.lookup frame name = m.frames.lookup frame name
  cells : m'.cells = m.cells
  made : m'.made = m.made
  queries : m'.queries = m.queries
  shown : m'.journal.filter Event.isShown = m.journal.filter Event.isShown

namespace Machine.Tandem

variable {frame : FrameId} {resolvers : List (Resolver σ)} {fs fs' : Frames} {m m' : Machine σ}

theorem note (h : Tandem ok frame resolvers fs fs' m m') (events events' : List Event)
    (hevents : events'.filter Event.isShown = events.filter Event.isShown) :
    (events' ++ m'.journal).filter Event.isShown = (events ++ m.journal).filter Event.isShown := by
  rw [List.filter_append, List.filter_append, hevents, h.shown]

theorem setHost (h : Tandem ok frame resolvers fs fs' m m') {state state' : σ}
    (hstate : ok state) (hstate' : ok state') :
    Tandem ok frame resolvers fs fs' { m with host := state } { m' with host := state' } :=
  { h with left := { h.left with ok := hstate }, right := { h.right with ok := hstate' } }

/-- Binding the same symbol in both. -/
theorem define (hfs : frame < fs.length) (hfs' : frame < fs'.length) (name : String) (v : Value)
    (h : Tandem ok frame resolvers fs fs' m m') :
    Tandem ok frame resolvers fs fs'
      { m with frames := m.frames.bind frame name v, journal := .bound frame name v :: m.journal }
      { m' with
        frames := m'.frames.bind frame name v
        journal := .bound frame name v :: m'.journal } where
  left := { h.left with only := h.left.only.bind name v }
  right := { h.right with only := h.right.only.bind name v }
  visible key := by
    show (m'.frames.bind frame name v).lookup frame key
      = (m.frames.bind frame name v).lookup frame key
    rw [Frames.lookup_bind (h.right.only.length.symm ▸ hfs'),
      Frames.lookup_bind (h.left.only.length.symm ▸ hfs), h.visible]
  cells := h.cells
  made := h.made
  queries := h.queries
  shown := h.shown

/-- Storing the same in both. -/
theorem store_related (stored : Cells) :
    Eval.Related (Tandem ok frame resolvers fs fs') (Eval.store stored) (Eval.store stored) := by
  unfold Eval.store
  split
  · exact .pure ()
  · exact .modify fun m m' h => { h with
      cells := congrArg (_ ++ ·) h.cells
      shown := h.note [_] [_] rfl }

/-- It does not matter at which desk a module was imported before. -/
theorem importModule (session : Nat) (name : String) :
    Eval.Related (Tandem ok frame resolvers fs fs') (Eval.importModule session name)
      (Eval.importModule session name) := by
  intro m m' h
  obtain ⟨state, events, imported, hrun, hstate, hshown, hsound⟩ :=
    Eval.importModule_sound h.left.sound h.left.ok session name
  obtain ⟨state', events', imported', hrun', hstate', hshown', hsound'⟩ :=
    Eval.importModule_sound h.right.sound h.right.ok session name
  have hanswer : (Imports.ask name m'.host 0 m'.imports.resolvers).answer
      = (Imports.ask name m.host 0 m.imports.resolvers).answer := by
    rw [h.right.resolvers, ← h.left.resolvers]
    exact (Imports.ask_steady h.left.sound.steady name h.left.ok h.right.ok 0 0).1
  rw [hrun, hrun', hanswer]
  exact .done _
    { h with
      left := ⟨h.left.only, h.left.resolvers, hsound, hstate⟩
      right := ⟨h.right.only, h.right.resolvers, hsound', hstate'⟩
      shown := h.note events events' (hshown'.trans hshown.symm) }

theorem printedText (h : Tandem ok frame resolvers fs fs' m m') :
    Event.printedText m'.journal.reverse = Event.printedText m.journal.reverse := by
  rw [← Event.printedText_shown, List.filter_reverse, h.shown, ← List.filter_reverse,
    Event.printedText_shown]

end Machine.Tandem

/-- Scripts that do the same, run side by side. -/
theorem Script.Steady.alike {frame : FrameId} {resolvers : List (Resolver σ)}
    {fs fs' : Frames} {script script' : Script σ} (h : Script.Steady ok script script') :
    Script.Alike (Machine.Tandem ok frame resolvers fs fs') script script' := by
  induction h with
  | finish answer => exact .finish answer
  | eval code _ ih => exact .eval code ih
  | get _ ih =>
    refine .get fun m m' hm => ?_
    rw [hm.cells]
    exact ih hm.left.ok hm.right.ok m.cells
  | set hstate hstate' _ ih =>
    exact .set (fun _ _ hm => hm.setHost hstate hstate') (Machine.Tandem.store_related _) ih

/-- Two runs for a session go side by side. -/
theorem Host.Steady.simulation {host : Host σ} (hhost : host.Steady ok) (site : Site)
    (resolvers : List (Resolver σ)) {fs fs' : Frames} (hfs : site.frame < fs.length)
    (hfs' : site.frame < fs'.length) :
    Simulation host site site (Machine.Tandem ok site.frame resolvers fs fs') where
  session := rfl
  checkpoint := .checkpoint site.patience (fun h => h.queries)
    fun h => { h with queries := congrArg (· + 1) h.queries }
  record e := .modify fun _ _ h => { h with shown := h.note [e] [e] rfl }
  cells h := h.cells
  store := Machine.Tandem.store_related
  made h := h.made
  count _ h := { h with made := rfl }
  visible h := h.visible
  define name v := .modify fun _ _ h => h.define hfs hfs' name v
  importModule name := Machine.Tandem.importModule site.session name
  found h module name := hhost.member module name h.left.ok h.right.ok
  listed h module := hhost.listing module h.left.ok h.right.ok
  call p args := (hhost.call p args).alike
  invoke module name args := (hhost.invoke module name args).alike

-- ====================================================== the platform

namespace Wasm

/-- A function that leaves the globals alone. -/
def Function.Still (f : Function) : Prop :=
  ∀ words globals, (f.run words globals).2 = globals

/-- Instances whose functions all leave the globals alone. -/
def Store.Still (s : Store) : Prop :=
  ∀ entry ∈ s, ∀ f ∈ entry.2.functions, f.2.Still

/-- A function that is found leaves the globals alone. -/
theorem Store.Still.function {s : Store} (h : s.Still) {module name : String} {i : Instance}
    {f : Function} (hmodule : s.get? module = some i) (hname : i.functions.lookup name = some f) :
    f.Still := by
  obtain ⟨before, after, rfl, -⟩ := List.lookup_eq_some_iff.1 hmodule
  obtain ⟨fs, fs', hfs, -⟩ := List.lookup_eq_some_iff.1 hname
  refine h (module, i) (List.mem_append_right _ List.mem_cons_self) (name, f) ?_
  rw [hfs]
  exact List.mem_append_right _ List.mem_cons_self

/-- A call of such a function leaves them alone. -/
theorem invoke_still {f : Function} (h : f.Still) (procedure : String) (globals : Globals)
    (args : List Value) : (invoke procedure f globals args).2 = globals := by
  unfold invoke
  split
  · rfl
  · exact h _ globals

/-- Setting globals changes one instance. -/
theorem Store.get?_setGlobals (s : Store) (module : String) (globals : Globals) (name : String) :
    (s.setGlobals module globals).get? name
      = if name = module then (s.get? name).map fun i => { i with globals } else s.get? name := by
  unfold setGlobals get?
  induction s with
  | nil => simp
  | cons entry rest ih =>
    rw [List.map_cons, List.lookup_cons, List.lookup_cons, ih]
    by_cases hentry : entry.1 = module
    · by_cases hname : name = module
      · simp [hentry, hname]
      · simp [hentry, hname, beq_false_of_ne hname]
    · by_cases hname : name = module
      · simp [hentry, hname, beq_false_of_ne (Ne.symm hentry)]
      · simp [hentry, hname]

/-- Setting the globals of an instance to what they are changes nothing. -/
theorem Store.get?_setGlobals_same {s : Store} {module : String} {i : Instance}
    (h : s.get? module = some i) (name : String) :
    (s.setGlobals module i.globals).get? name = s.get? name := by
  rw [get?_setGlobals]
  split
  · next hname => rw [hname, h, Option.map_some]
  · rfl

end Wasm

namespace Platform

/-- The states in which a platform has the same surroundings and the same
modules of machine code at work. -/
structure Resting (surroundings : Surroundings) (machines : Wasm.Store) (p : Platform) : Prop where
  surroundings : p.surroundings = surroundings
  machines : ∀ module, p.machines.get? module = machines.get? module

variable {surroundings : Surroundings} {machines : Wasm.Store}

theorem ofResult_steady (ok : Platform → Prop) (r : Result) :
    Script.Steady ok (ofResult r) (ofResult r) := by
  cases r with
  | ok v => exact .finish _
  | error f => exact .finish _

/-- The procedures of the platform look at its surroundings only. -/
theorem call_steady (proc : HostProc) (args : List Value) :
    Script.Steady (Resting surroundings machines) (host.call proc args) (host.call proc args) := by
  show Script.Steady _ ((call? proc args).getD (unknown proc.name))
    ((call? proc args).getD (unknown proc.name))
  cases h : call? proc args with
  | none => exact .finish _
  | some script =>
    unfold call? at h
    split at h
    · obtain ⟨f, -, rfl⟩ := Option.map_eq_some_iff.1 h
      exact ofResult_steady _ (f args)
    · obtain ⟨f, -, rfl⟩ := Option.map_eq_some_iff.1 h
      refine .get fun hp hp' cells => ?_
      rw [hp.surroundings, hp'.surroundings]
      exact ofResult_steady _ _
    · cases h

/-- A function of machine code that leaves the globals alone. -/
theorem invoke_steady (hstill : machines.Still) (module name : String) (args : List Value) :
    Script.Steady (Resting surroundings machines) (invoke module name args)
      (invoke module name args) := by
  refine .get fun {p p'} hp hp' cells => ?_
  dsimp only
  rw [hp.machines, hp'.machines]
  cases hmodule : machines.get? module with
  | none => exact .finish _
  | some i =>
    dsimp only
    cases hname : i.functions.lookup name with
    | none => exact .finish _
    | some f =>
      -- the call leaves the globals as they are, so the platform keeps resting
      have hglobals := Wasm.invoke_still (hstill.function hmodule hname)
        (module ++ "." ++ name) i.globals args
      have hrest : ∀ {p : Platform}, p.Resting surroundings machines →
          { p with machines := p.machines.setGlobals module i.globals }.Resting
            surroundings machines :=
        fun hp => ⟨hp.surroundings, fun other =>
          (Wasm.Store.get?_setGlobals_same ((hp.machines module).trans hmodule) other).trans
            (hp.machines other)⟩
      dsimp only
      rw [hglobals]
      exact .set (hrest hp) (hrest hp') (.finish _)

/-- A platform whose modules of machine code keep their globals has no
state that shows. -/
theorem host_steady (hstill : machines.Still) :
    host.Steady (Resting surroundings machines) where
  call := call_steady
  invoke := invoke_steady hstill
  member module name p p' hp hp' := by
    show Platform.member module name p' = Platform.member module name p
    unfold Platform.member
    rw [hp.machines, hp'.machines]
  listing module p p' hp hp' := by
    show Platform.listing module p' = Platform.listing module p
    unfold Platform.listing
    rw [hp.machines, hp'.machines]

/-- The modules of the platform itself are always the same. -/
theorem nativeResolver_steady : nativeResolver.Steady (Resting surroundings machines) where
  answer name p p' hp hp' := by
    unfold nativeResolver
    rw [hp.surroundings, hp'.surroundings]
    split
    · rfl
    · rfl
  keeps name p hp := by
    unfold nativeResolver
    split
    · exact hp
    · exact hp

end Platform

end LispShell
