/-
Sessions at one desk do not see each other.

A session may be forked at any time, and forks may be forked again; they
run in turns, in any order, on one store of frames, one import table and
one host. Still each of them answers, prints and binds exactly what it
would if after its making only its own moves had come
(`replies_alone`), as long as no other one stores anything in place.

That is the one thing they do share: a fork copies the frames, but not the
values in them, so a wide integer that was bound before is the same one in
both (`stores_are_shared`).

Two things keep them apart. A run for a session binds symbols in the root
frame of that session and nowhere else, and that frame is on the path of
no other session, since a fork starts with copies (`Fit.apart`). And what
one session imports is what the resolvers would have told any other
(`Imports.Sound`), so it does not matter who asked first.

# Method

`Twin ok s d d'` says that two desks are the same to session `s`. What
another session does leads to a desk that is the same to `s`
(`Fit.twin_act`); a move of `s` at both desks gets the same reply and leads
to desks that are the same to it again (`Twin.act`). The rest is an
induction on the history: up to the making of `s` there is one desk, from
then on there are two.

# What is assumed

The resolvers give lasting answers, none is added after the first fork
(`Proper`), neither the modules nor the procedures of the host have a
state that shows (`Host.Steady`), and after a session was made the others
store nothing in place (`Desk.Undisturbed`). What the session itself stores
does not matter.
-/
import LispShell.Proofs.Tandem
import LispShell.Proofs.Terms

namespace LispShell

variable {σ : Type} {ok : σ → Prop}

-- ====================================================== histories

/-- What a session can be asked for: the outcomes of all forms of a text,
its last value, or that a file be loaded, given what reading it comes to. -/
inductive Call where
  | program (source : String)
  | eval (source : String)
  | load (name : String) (content : Except Failure String)

/-- What a call answers. -/
inductive Answer where
  | outcomes (each : List (Except Failure Value))
  | value (v : Value)
  | loaded

/-- An answer with what its values hold now. -/
def Answer.read (cells : Cells) : Answer → Answer
  | .outcomes each => .outcomes (each.map (Except.map (Value.read cells)))
  | .value v => .value (v.read cells)
  | .loaded => .loaded

/-- Does what is asked for. -/
def Call.run (i : Interpreter σ) : Call → Eval σ Answer
  | .program source => do return .outcomes (← i.program source)
  | .eval source => do return .value (← i.evalSource source)
  | .load name content => do
    i.loadFile name content
    return .loaded

/-- What a caller gets: the answer, as it reads then, or the failure, and
what was printed. -/
structure Response where
  answer : Except Failure Answer
  printed : String

/-- What can be done with a session. -/
inductive Act (σ : Type) where
  | call (patience : Option Nat) (c : Call)
  | fork
  | addResolver (r : Resolver σ)

/-- How many sessions an act makes. -/
def Act.forks : Act σ → Nat
  | .fork => 1
  | _ => 0

/-- An act and the session it is done with. -/
structure Move (σ : Type) where
  session : Nat
  act : Act σ

/-- What comes of moves: for each call the session and the response, none
if the depth did not suffice; and the desk after them. -/
structure Chronicle (σ : Type) where
  replies : List (Nat × Option Response)
  desk : Desk σ

/-- The replies to one session. -/
def Chronicle.repliesTo (c : Chronicle σ) (s : Nat) : List (Option Response) :=
  (c.replies.filter (·.1 == s)).map (·.2)

namespace Desk

/-- What comes of one move. -/
def act (host : Host σ) (depth : Nat) (d : Desk σ) : Move σ → Chronicle σ
  | ⟨s, .call patience c⟩ =>
    match d.run s (c.run (d.interpreter host depth patience s)) with
    | some r =>
      ⟨[(s, some ⟨r.answer.map (Answer.read r.desk.cells), Event.printedText r.events⟩)], r.desk⟩
    | none => ⟨[(s, none)], d⟩
  | ⟨s, .fork⟩ => ⟨[], d.fork s⟩
  | ⟨s, .addResolver r⟩ => ⟨[], d.addResolver s r⟩

/-- What comes of moves, one after the other. -/
def history (host : Host σ) (depth : Nat) (d : Desk σ) : List (Move σ) → Chronicle σ
  | [] => ⟨[], d⟩
  | move :: rest =>
    let first := d.act host depth move
    let later := first.desk.history host depth rest
    ⟨first.replies ++ later.replies, later.desk⟩

/-- What a session sees under a name, as it reads now. -/
def sees (d : Desk σ) (s : Nat) (name : String) : Option Value :=
  (d.frames.lookup (d.session s).root name).map (Value.read d.cells)

/-- What happened during a move, first things first. -/
def eventsOf (host : Host σ) (depth : Nat) (d : Desk σ) : Move σ → List Event
  | ⟨s, .call patience c⟩ =>
    match d.run s (c.run (d.interpreter host depth patience s)) with
    | some r => r.events
    | none => []
  | _ => []

/-- Once session `s` was made, no other one stores anything in place. -/
def Undisturbed (host : Host σ) (depth : Nat) (s : Nat) (d : Desk σ) : List (Move σ) → Prop
  | [] => True
  | move :: rest =>
    (s < d.sessions.length → move.session ≠ s → ∀ e ∈ d.eventsOf host depth move, e.cells = [])
      ∧ (d.act host depth move).desk.Undisturbed host depth s rest

instance (host : Host σ) (depth s : Nat) (d : Desk σ) (moves : List (Move σ)) :
    Decidable (d.Undisturbed host depth s moves) := by
  induction moves generalizing d with
  | nil => exact .isTrue trivial
  | cons move rest ih => exact @instDecidableAnd _ _ _ (ih (d.act host depth move).desk)

end Desk

/-- A history without what others did after a session was made; at its
start there are `sessions` sessions. -/
def alone (s : Nat) : Nat → List (Move σ) → List (Move σ)
  | _, [] => []
  | sessions, move :: rest =>
    if s < sessions then (move :: rest).filter (·.session == s)
    else move :: alone s (sessions + move.act.forks) rest

/-- Resolvers are added only while there is one session, and give lasting
answers. -/
def Act.Allowed (ok : σ → Prop) (sessions : Nat) : Act σ → Prop
  | .addResolver r => sessions = 1 ∧ r.Steady ok
  | _ => True

/-- A history whose moves are allowed and are those of sessions that there
are by then. -/
def Proper (ok : σ → Prop) : Nat → List (Move σ) → Prop
  | _, [] => True
  | sessions, move :: rest =>
    (move.session < sessions ∧ move.act.Allowed ok sessions)
      ∧ Proper ok (sessions + move.act.forks) rest

namespace Desk

variable {d d' d'' : Desk σ} {s t : Nat} {host : Host σ} {depth : Nat} {patience : Option Nat}
  {c : Call} {m m' : Machine σ}

/-- A call that came to an end. -/
theorem act_done {answer : Except Failure Answer}
    (h : c.run (d.interpreter host depth patience s) (d.machine s) = .done answer m) :
    d.act host depth ⟨s, .call patience c⟩
      = ⟨[(s, some ⟨answer.map (Answer.read m.cells), Event.printedText m.journal.reverse⟩)],
          d.putBack s m⟩ := by
  unfold act
  dsimp only
  rw [run_done h]
  rfl

/-- What happened during such a call. -/
theorem eventsOf_done {answer : Except Failure Answer}
    (h : c.run (d.interpreter host depth patience s) (d.machine s) = .done answer m) :
    d.eventsOf host depth ⟨s, .call patience c⟩ = m.journal.reverse := by
  unfold eventsOf
  dsimp only
  rw [run_done h]

/-- A call for which the depth did not suffice. -/
theorem act_spent (h : c.run (d.interpreter host depth patience s) (d.machine s) = .spent) :
    d.act host depth ⟨s, .call patience c⟩ = ⟨[(s, none)], d⟩ := by
  unfold act
  dsimp only
  rw [run_spent h]

theorem length_putBack (d : Desk σ) (s : Nat) (m : Machine σ) :
    (d.putBack s m).sessions.length = d.sessions.length :=
  List.length_modify ..

/-- A fork makes one session. -/
theorem length_act (host : Host σ) (depth : Nat) (d : Desk σ) (move : Move σ) :
    (d.act host depth move).desk.sessions.length = d.sessions.length + move.act.forks := by
  obtain ⟨s, act⟩ := move
  cases act with
  | call patience c =>
    cases hrun : c.run (d.interpreter host depth patience s) (d.machine s) with
    | done answer m =>
      rw [act_done hrun]
      exact length_putBack d s m
    | spent =>
      rw [act_spent hrun]
      rfl
  | fork => exact length_fork d s
  | addResolver r => rfl

theorem frames_fork (d : Desk σ) (s : Nat) : ∃ more, (d.fork s).frames = d.frames ++ more :=
  (Frames.copy_spec d.frames (d.session s).root).1.added

/-- A session after a fork is an old one or the new one. -/
theorem fork_cases (h : t < (d.fork s).sessions.length) :
    t < d.sessions.length ∨ t = d.sessions.length :=
  Nat.lt_succ_iff_lt_or_eq.1 (Nat.lt_of_lt_of_eq h (length_fork d s))

-- ====================================================== desks

/-- The import table that all sessions share. -/
def imports (d : Desk σ) : Imports σ :=
  d.tables.getD 0 ⟨[], []⟩

/-- A desk whose sessions share one sound import table and have frames of
their own. -/
structure Fit (ok : σ → Prop) (d : Desk σ) : Prop where
  tables : 0 < d.tables.length
  shared : ∀ s, s < d.sessions.length → (d.session s).table = 0
  inside : ∀ s, s < d.sessions.length → (d.session s).root < d.frames.length
  apart : ∀ s t, s < d.sessions.length → t < d.sessions.length → s ≠ t →
    (d.session t).root ∉ d.frames.path (d.session s).root
  sound : d.imports.Sound ok
  ok : ok d.host

namespace Fit

/-- Every session of such a desk has its table. -/
theorem isSession (h : d.Fit ok) (hs : s < d.sessions.length) : d.IsSession s :=
  ⟨hs, (h.shared s hs).symm ▸ h.tables⟩

/-- Every session has the shared table. -/
theorem table_eq (h : d.Fit ok) (hs : s < d.sessions.length) : d.table s = d.imports := by
  unfold table imports
  rw [h.shared s hs]

/-- The shared table after a call. -/
theorem imports_putBack (h : d.Fit ok) (hs : s < d.sessions.length) (m : Machine σ) :
    (d.putBack s m).imports = m.imports := by
  rw [← table_putBack (h.isSession hs) m]
  unfold table imports
  rw [tableOf_putBack, h.shared s hs]

/-- Before a run nothing is bound yet. -/
theorem within (h : d.Fit ok) (hs : s < d.sessions.length) (frame : FrameId) :
    Within ok frame d.imports.resolvers d.frames (d.machine s).frames (d.machine s).imports
      (d.machine s).host where
  only := .refl frame d.frames
  resolvers := congrArg Imports.resolvers (h.table_eq hs)
  sound := by
    show (d.table s).Sound ok
    rw [h.table_eq hs]
    exact h.sound
  ok := h.ok

/-- A call that binds only in its own frame leaves such a desk. -/
theorem putBack (h : d.Fit ok) (hs : s < d.sessions.length)
    (hm : Within ok (d.session s).root d.imports.resolvers d.frames m.frames m.imports m.host) :
    (d.putBack s m).Fit ok where
  tables := by
    show 0 < (d.tables.set _ _).length
    rw [List.length_set]
    exact h.tables
  shared t ht := by
    rw [tableOf_putBack]
    exact h.shared t (length_putBack d s m ▸ ht)
  inside t ht := by
    rw [root_putBack]
    show _ < m.frames.length
    rw [hm.only.length]
    exact h.inside t (length_putBack d s m ▸ ht)
  apart t u ht hu hne := by
    rw [root_putBack, root_putBack]
    show _ ∉ m.frames.path _
    rw [hm.only.path]
    exact h.apart t u (length_putBack d s m ▸ ht) (length_putBack d s m ▸ hu) hne
  sound := (h.imports_putBack hs m).symm ▸ hm.sound
  ok := hm.ok

/-- The copies that a fork starts with are on no other path, and no other
frame is on theirs. -/
theorem apart_fork (h : d.Fit ok) (s : Nat) {t u : Nat} (ht : t < (d.fork s).sessions.length)
    (hu : u < (d.fork s).sessions.length) (hne : t ≠ u) :
    ((d.fork s).session u).root ∉ (d.fork s).frames.path ((d.fork s).session t).root := by
  have hnew := (Frames.copy_spec d.frames (d.session s).root).1
  rcases fork_cases ht with ht | rfl
  · obtain ⟨more, hmore⟩ := frames_fork d s
    rw [session_fork ht, hmore, Frames.path_append (h.inside t ht)]
    rcases fork_cases hu with hu | rfl
    · rw [session_fork hu]
      exact h.apart t u ht hu hne
    · rw [session_fork_new]
      intro hmem
      have habove := hnew.above (Frames.self_mem_path _ _)
      have hbelow := Nat.lt_of_le_of_lt (Frames.le_of_mem_path hmem) (h.inside t ht)
      exact Nat.lt_irrefl _ (Nat.lt_of_lt_of_le hbelow habove)
  · rcases fork_cases hu with hu | rfl
    · rw [session_fork hu, session_fork_new]
      intro hmem
      exact Nat.lt_irrefl _ (Nat.lt_of_lt_of_le (h.inside u hu) (hnew.above hmem))
    · exact absurd rfl hne

/-- A fork leaves such a desk. -/
theorem fork (h : d.Fit ok) (hs : s < d.sessions.length) : (d.fork s).Fit ok where
  tables := h.tables
  shared t ht := by
    rcases fork_cases ht with ht | rfl
    · rw [session_fork ht]
      exact h.shared t ht
    · rw [session_fork_new]
      exact h.shared s hs
  inside t ht := by
    rcases fork_cases ht with ht | rfl
    · obtain ⟨more, hmore⟩ := frames_fork d s
      rw [session_fork ht, hmore, List.length_append]
      exact Nat.lt_add_right _ (h.inside t ht)
    · rw [session_fork_new]
      exact (Frames.copy_spec d.frames (d.session s).root).1.inside
  apart _ _ := h.apart_fork s
  sound := h.sound
  ok := h.ok

/-- The shared table with one more resolver. -/
theorem imports_addResolver (h : d.Fit ok) (hs : s < d.sessions.length) (r : Resolver σ) :
    (d.addResolver s r).imports = d.imports.addResolver (r.naming 0) := by
  show (d.tables.modify (d.session s).table fun t =>
    t.addResolver (r.naming (d.session s).table)).getD 0 ⟨[], []⟩ = _
  rw [h.shared s hs]
  unfold imports
  rw [List.getD_eq_getElem?_getD, List.getD_eq_getElem?_getD, List.getElem?_modify_eq,
    List.getElem?_eq_getElem h.tables]
  rfl

/-- Adding a lasting resolver leaves such a desk. -/
theorem addResolver (h : d.Fit ok) (hs : s < d.sessions.length) {r : Resolver σ}
    (hr : r.Steady ok) : (d.addResolver s r).Fit ok where
  tables := by
    show 0 < (d.tables.modify _ _).length
    rw [List.length_modify]
    exact h.tables
  shared := h.shared
  inside := h.inside
  apart := h.apart
  sound := (h.imports_addResolver hs r).symm ▸ h.sound.addResolver hr 0
  ok := h.ok

/-- A desk with one new session. -/
theorem start {state : σ} (hstate : ok state) {resolvers : List (Resolver σ)}
    (hresolvers : ∀ r ∈ resolvers, r.Steady ok) (root : Bindings) :
    ((Desk.empty state).addSession root ⟨resolvers, []⟩).Fit ok where
  tables := Nat.zero_lt_one
  shared s hs := by
    obtain rfl := Nat.lt_one_iff.1 hs
    rfl
  inside s hs := by
    obtain rfl := Nat.lt_one_iff.1 hs
    exact Nat.zero_lt_one
  apart s t hs ht hne := absurd ((Nat.lt_one_iff.1 hs).trans (Nat.lt_one_iff.1 ht).symm) hne
  sound := Imports.sound_asTable hresolvers 0
  ok := hstate

end Fit

-- ====================================================== the same to a session

/-- Two desks that are the same to one session. -/
structure Twin (ok : σ → Prop) (s : Nat) (d d' : Desk σ) : Prop where
  left : d.Fit ok
  right : d'.Fit ok
  here : s < d.sessions.length
  there : s < d'.sessions.length
  session : d'.session s = d.session s
  visible : ∀ name,
    d'.frames.lookup (d'.session s).root name = d.frames.lookup (d.session s).root name
  cells : d'.cells = d.cells
  resolvers : d'.imports.resolvers = d.imports.resolvers

namespace Twin

/-- A desk is the same as itself. -/
theorem refl (h : d.Fit ok) (hs : s < d.sessions.length) : Twin ok s d d :=
  ⟨h, h, hs, hs, rfl, fun _ => rfl, rfl, rfl⟩

theorem symm (h : Twin ok s d d') : Twin ok s d' d :=
  ⟨h.right, h.left, h.there, h.here, h.session.symm, fun name => (h.visible name).symm,
    h.cells.symm, h.resolvers.symm⟩

theorem trans (h : Twin ok s d d') (h' : Twin ok s d' d'') : Twin ok s d d'' :=
  ⟨h.left, h'.right, h.here, h'.there, h'.session.trans h.session,
    fun name => (h'.visible name).trans (h.visible name), h'.cells.trans h.cells,
    h'.resolvers.trans h.resolvers⟩

/-- The session sees the same at both. -/
theorem sees_eq (h : Twin ok s d d') (name : String) : d'.sees s name = d.sees s name := by
  unfold sees
  rw [h.visible, h.cells]

/-- Before a call the machines of both desks are in tandem. -/
theorem tandem (h : Twin ok s d d') :
    Machine.Tandem ok (d.session s).root d.imports.resolvers d.frames d'.frames (d.machine s)
      (d'.machine s) where
  left := h.left.within h.here _
  right := h.resolvers ▸ h.right.within h.there _
  visible name := by
    have hvisible := h.visible name
    rw [h.session] at hvisible
    exact hvisible
  cells := h.cells
  made := congrArg Session.made h.session
  queries := rfl
  shown := rfl

/-- After a call that went side by side the desks are the same again. -/
theorem putBack (h : Twin ok s d d')
    (hm : Machine.Tandem ok (d.session s).root d.imports.resolvers d.frames d'.frames m m') :
    Twin ok s (d.putBack s m) (d'.putBack s m') where
  left := h.left.putBack h.here hm.left
  right := by
    refine h.right.putBack h.there ?_
    rw [h.session, h.resolvers]
    exact hm.right
  here := (length_putBack d s m).symm ▸ h.here
  there := (length_putBack d' s m').symm ▸ h.there
  session := by
    rw [session_putBack, session_putBack, if_pos ⟨rfl, h.there⟩, if_pos ⟨rfl, h.here⟩, h.session,
      hm.made]
  visible name := by
    rw [root_putBack, root_putBack, h.session]
    exact hm.visible name
  cells := hm.cells
  resolvers := by
    rw [h.left.imports_putBack h.here, h.right.imports_putBack h.there, hm.left.resolvers,
      hm.right.resolvers]

end Twin

-- ====================================================== calls

/-- A call leaves the journal it found, and stores what its events say. -/
theorem keeps_run (i : Interpreter σ) (c : Call) :
    Eval.Keeps (Terms.lax σ) True (c.run i) fun _ => True := by
  have hlax := Terms.lax_upheld i.host i.site
  have hreturn : ∀ {α : Type} {pre : Prop} (a : α),
      Eval.Keeps (Terms.lax σ) pre (Eval.pure a) fun _ => True :=
    fun a => (Eval.Keeps.pure a).of_pre fun _ => trivial
  cases c with
  | program source => exact (hlax.program i.depth source).bind fun _ => hreturn _
  | eval source => exact (hlax.evalSource i.depth source).bind fun _ => hreturn _
  | load name content =>
    have hcontent : (Terms.lax σ).answer (fun _ => True) content := by
      cases content <;> trivial
    exact ((hlax.loadFile i.depth name content).of_pre fun _ => hcontent).bind fun _ => hreturn _

/-- A call goes side by side if evaluation does. -/
theorem run_related {R : Machine σ → Machine σ → Prop} {site : Site}
    (sim : Simulation host site site R)
    (hlog : ∀ entry entry',
      Eval.Related R (Eval.record (.logged entry)) (Eval.record (.logged entry'))) (c : Call) :
    Eval.Related R (c.run ⟨host, site, depth⟩) (c.run ⟨host, site, depth⟩) := by
  cases c with
  | program source => exact (sim.program hlog source).bind fun _ => .pure _
  | eval source => exact (sim.evalSource source).bind fun _ => .pure _
  | load name content => exact (sim.loadFile name content).bind fun _ => .pure _

namespace Twin

/-- The same call at both desks. -/
theorem run_alike (hhost : host.Steady ok) (h : Twin ok s d d') (depth : Nat)
    (patience : Option Nat) (c : Call) :
    (c.run (d.interpreter host depth patience s) (d.machine s)).Alike
      (Machine.Tandem ok (d.session s).root d.imports.resolvers d.frames d'.frames)
      (c.run (d'.interpreter host depth patience s) (d'.machine s)) := by
  have hsame : d'.interpreter host depth patience s = d.interpreter host depth patience s := by
    unfold interpreter
    rw [h.session]
  have hthere : (d.session s).root < d'.frames.length := h.session ▸ h.right.inside s h.there
  rw [hsame]
  refine run_related (hhost.simulation ⟨s, (d.session s).root, patience⟩ d.imports.resolvers
    (h.left.inside s h.here) hthere) (fun _ _ => ?_) c _ _ h.tandem
  exact .modify fun _ _ hm => { hm with shown := hm.shown }

/-- The same call gets the same reply. -/
theorem call (hhost : host.Steady ok) (h : Twin ok s d d') (depth : Nat) (patience : Option Nat)
    (c : Call) :
    (d'.act host depth ⟨s, .call patience c⟩).replies
        = (d.act host depth ⟨s, .call patience c⟩).replies
      ∧ Twin ok s (d.act host depth ⟨s, .call patience c⟩).desk
          (d'.act host depth ⟨s, .call patience c⟩).desk := by
  have hend := h.run_alike hhost depth patience c
  generalize hrun : c.run (d.interpreter host depth patience s) (d.machine s) = x at hend
  generalize hrun' : c.run (d'.interpreter host depth patience s) (d'.machine s) = y at hend
  cases hend with
  | done answer hm =>
    rw [act_done hrun, act_done hrun', hm.printedText, hm.cells]
    exact ⟨rfl, h.putBack hm⟩
  | spent =>
    rw [act_spent hrun, act_spent hrun']
    exact ⟨rfl, h⟩

end Twin

namespace Fit

/-- A call in which nothing is stored leaves the cells as they are. -/
theorem cells_of_done {answer : Except Failure Answer}
    (hrun : c.run (d.interpreter host depth patience s) (d.machine s) = .done answer m)
    (hquiet : ∀ e ∈ d.eventsOf host depth ⟨s, .call patience c⟩, e.cells = []) :
    m.cells = d.cells := by
  have hkeeps := keeps_run (d.interpreter host depth patience s) c
  obtain ⟨new, hadds, -⟩ := hkeeps _ answer m hrun
  rw [eventsOf_done hrun, hadds.journal] at hquiet
  refine hadds.cells_eq fun e he => hquiet e ?_
  exact List.mem_reverse.2 (List.mem_append_left _ he)

/-- A call binds only in the root frame of its session. -/
theorem within_of_done (hhost : host.Steady ok) (h : d.Fit ok) (hs : s < d.sessions.length)
    {answer : Except Failure Answer}
    (hrun : c.run (d.interpreter host depth patience s) (d.machine s) = .done answer m) :
    Within ok (d.session s).root d.imports.resolvers d.frames m.frames m.imports m.host := by
  have hend := (Twin.refl h hs).run_alike hhost depth patience c
  rw [hrun] at hend
  cases hend with
  | done answer hm => exact hm.left

-- ====================================================== moves of others

/-- A call of another session, if nothing was stored. -/
theorem twin_putBack (h : d.Fit ok) (hs : s < d.sessions.length) (ht : t < d.sessions.length)
    (hne : t ≠ s)
    (hm : Within ok (d.session t).root d.imports.resolvers d.frames m.frames m.imports m.host)
    (hcells : m.cells = d.cells) : Twin ok s (d.putBack t m) d where
  left := h.putBack ht hm
  right := h
  here := (length_putBack d t m).symm ▸ hs
  there := hs
  session := by
    rw [session_putBack, if_neg fun hst => hne hst.1.symm]
  visible name := by
    rw [root_putBack]
    exact (hm.only.lookup (h.apart s t hs ht hne.symm) name).symm
  cells := hcells.symm
  resolvers := by rw [h.imports_putBack ht, hm.resolvers]

/-- A fork of any session. -/
theorem twin_fork (h : d.Fit ok) (hs : s < d.sessions.length) (ht : t < d.sessions.length) :
    Twin ok s (d.fork t) d where
  left := h.fork ht
  right := h
  here := (length_fork d t).symm ▸ Nat.lt_succ_of_lt hs
  there := hs
  session := (session_fork hs t).symm
  visible name := by
    obtain ⟨more, hmore⟩ := frames_fork d t
    rw [session_fork hs, hmore, Frames.lookup_append (h.inside s hs)]
  cells := rfl
  resolvers := rfl

/-- What another session does is not seen, if it stores nothing. -/
theorem twin_act (hhost : host.Steady ok) (h : d.Fit ok) (hs : s < d.sessions.length)
    {move : Move σ} (hmove : move.session < d.sessions.length) (hne : move.session ≠ s)
    (hallowed : move.act.Allowed ok d.sessions.length) {depth : Nat}
    (hquiet : ∀ e ∈ d.eventsOf host depth move, e.cells = []) :
    Twin ok s (d.act host depth move).desk d := by
  obtain ⟨t, act⟩ := move
  cases act with
  | call patience c =>
    cases hrun : c.run (d.interpreter host depth patience t) (d.machine t) with
    | done answer m =>
      rw [act_done hrun]
      exact h.twin_putBack hs hmove hne (h.within_of_done hhost hmove hrun)
        (cells_of_done hrun hquiet)
    | spent =>
      rw [act_spent hrun]
      exact .refl h hs
  | fork => exact h.twin_fork hs hmove
  | addResolver r =>
    -- there is only one session, and it is not another one
    rw [hallowed.1] at hs hmove
    exact absurd ((Nat.lt_one_iff.1 hmove).trans (Nat.lt_one_iff.1 hs).symm) hne

end Fit

-- ====================================================== own moves

/-- One more resolver at both desks. -/
theorem Twin.addResolver (h : Twin ok s d d') {r : Resolver σ} (hr : r.Steady ok) :
    Twin ok s (d.addResolver s r) (d'.addResolver s r) where
  left := h.left.addResolver h.here hr
  right := h.right.addResolver h.there hr
  here := h.here
  there := h.there
  session := h.session
  visible := h.visible
  cells := h.cells
  resolvers := by
    rw [h.left.imports_addResolver h.here, h.right.imports_addResolver h.there]
    exact congrArg (· ++ [r.naming 0]) h.resolvers

/-- The same move at both desks. -/
theorem Twin.act (hhost : host.Steady ok) (h : Twin ok s d d') {move : Move σ}
    (hown : move.session = s) {sessions : Nat} (hallowed : move.act.Allowed ok sessions)
    (depth : Nat) :
    (d'.act host depth move).replies = (d.act host depth move).replies
      ∧ Twin ok s (d.act host depth move).desk (d'.act host depth move).desk := by
  obtain ⟨t, act⟩ := move
  obtain rfl := hown
  cases act with
  | call patience c => exact h.call hhost depth patience c
  | fork =>
    refine ⟨rfl, ?_⟩
    have hhere := h.left.twin_fork h.here h.here
    have hthere := h.right.twin_fork h.there h.there
    exact (hhere.trans h).trans hthere.symm
  | addResolver r => exact ⟨rfl, h.addResolver hallowed.2⟩

/-- A move leaves such a desk. -/
theorem Fit.act (hhost : host.Steady ok) (h : d.Fit ok) {move : Move σ}
    (hmove : move.session < d.sessions.length)
    (hallowed : move.act.Allowed ok d.sessions.length) (depth : Nat) :
    (d.act host depth move).desk.Fit ok :=
  ((Twin.refl h hmove).act hhost rfl hallowed depth).2.left

-- ====================================================== histories of a session

/-- The replies to a session, move by move. -/
theorem repliesTo_history_cons (host : Host σ) (depth : Nat) (d : Desk σ) (move : Move σ)
    (rest : List (Move σ)) (s : Nat) :
    (d.history host depth (move :: rest)).repliesTo s
      = (d.act host depth move).repliesTo s
        ++ ((d.act host depth move).desk.history host depth rest).repliesTo s := by
  unfold Chronicle.repliesTo
  rw [← List.map_append, ← List.filter_append]
  rfl

/-- What another session does gets no reply here. -/
theorem repliesTo_act_of_ne {move : Move σ} (h : move.session ≠ s) :
    (d.act host depth move).repliesTo s = [] := by
  obtain ⟨t, act⟩ := move
  have hother : ∀ reply : Option Response, [(t, reply)].filter (·.1 == s) = [] :=
    fun reply => List.filter_cons_of_neg (by simpa using h)
  unfold Chronicle.repliesTo
  cases act with
  | call patience c =>
    cases hrun : c.run (d.interpreter host depth patience t) (d.machine t) with
    | done answer m => rw [act_done hrun, hother, List.map_nil]
    | spent => rw [act_spent hrun, hother, List.map_nil]
  | fork => rfl
  | addResolver r => rfl

/-- Once there is a session, its own moves are all that matters to it. -/
theorem Twin.history (hhost : host.Steady ok) (h : Twin ok s d d') {moves : List (Move σ)}
    (hproper : Proper ok d.sessions.length moves) {depth : Nat}
    (hquiet : d.Undisturbed host depth s moves) :
    (d'.history host depth (moves.filter (·.session == s))).repliesTo s
        = (d.history host depth moves).repliesTo s
      ∧ Twin ok s (d.history host depth moves).desk
          (d'.history host depth (moves.filter (·.session == s))).desk := by
  induction moves generalizing d d' with
  | nil => exact ⟨rfl, h⟩
  | cons move rest ih =>
    obtain ⟨⟨hmove, hallowed⟩, hrest⟩ := hproper
    obtain ⟨hstores, hquiet⟩ := hquiet
    rw [← length_act host depth d move] at hrest
    by_cases hown : move.session = s
    · obtain ⟨hreplies, htwin⟩ := h.act hhost hown hallowed depth
      obtain ⟨hlater, hend⟩ := ih htwin hrest hquiet
      rw [List.filter_cons_of_pos (by simpa using hown)]
      refine ⟨?_, hend⟩
      rw [repliesTo_history_cons, repliesTo_history_cons, hlater]
      unfold Chronicle.repliesTo
      rw [hreplies]
    · have htwin := (h.left.twin_act hhost h.here hmove hown hallowed (hstores h.here hown)).trans h
      obtain ⟨hlater, hend⟩ := ih htwin hrest hquiet
      rw [List.filter_cons_of_neg (by simpa using hown)]
      refine ⟨?_, hend⟩
      rw [repliesTo_history_cons, repliesTo_act_of_ne hown, hlater, List.nil_append]

/-- Before a session is made there is nothing to leave out. -/
theorem Fit.history (hhost : host.Steady ok) (h : d.Fit ok) {moves : List (Move σ)}
    (hproper : Proper ok d.sessions.length moves) {depth s : Nat}
    (hquiet : d.Undisturbed host depth s moves) :
    (d.history host depth (alone s d.sessions.length moves)).repliesTo s
        = (d.history host depth moves).repliesTo s
      ∧ ∀ name, (d.history host depth (alone s d.sessions.length moves)).desk.sees s name
          = (d.history host depth moves).desk.sees s name := by
  induction moves generalizing d with
  | nil => exact ⟨rfl, fun _ => rfl⟩
  | cons move rest ih =>
    unfold alone
    split
    · next hs =>
      obtain ⟨hreplies, htwin⟩ := (Twin.refl h hs).history hhost hproper hquiet
      exact ⟨hreplies, htwin.sees_eq⟩
    · obtain ⟨⟨hmove, hallowed⟩, hrest⟩ := hproper
      rw [← length_act host depth d move] at hrest ⊢
      obtain ⟨hlater, hend⟩ := ih (h.act hhost hmove hallowed depth) hrest hquiet.2
      rw [repliesTo_history_cons, repliesTo_history_cons, hlater]
      exact ⟨rfl, hend⟩

/-- Every session that there ever is gets the replies, and sees the
bindings, that it would if after its making only its own moves had come, if
no other one stored anything in place since then. -/
theorem replies_alone {host : Host σ} (hhost : host.Steady ok) {resolvers : List (Resolver σ)}
    (hresolvers : ∀ r ∈ resolvers, r.Steady ok) {state : σ} (hstate : ok state)
    (root : Bindings) (depth : Nat) {moves : List (Move σ)} (hproper : Proper ok 1 moves)
    (s : Nat) (hquiet : ((Desk.empty state).addSession root ⟨resolvers, []⟩).Undisturbed
      host depth s moves) :
    let start := (Desk.empty state).addSession root ⟨resolvers, []⟩
    (start.history host depth (alone s 1 moves)).repliesTo s
        = (start.history host depth moves).repliesTo s
      ∧ ∀ name, (start.history host depth (alone s 1 moves)).desk.sees s name
          = (start.history host depth moves).desk.sees s name :=
  (Fit.start hstate hresolvers root).history hhost hproper hquiet

/-- A platform where a module of machine code is at work. -/
def workshop : Platform where
  surroundings := ⟨[], "/", [], ""⟩
  disk := []
  engine := Wasm.Sample.engine
  machines := [("adder", ⟨[("add", Wasm.Sample.pureFunction [.i64, .i64] [.i64]
    (Wasm.Sample.onTwo fun a b => .ok [a + b]))], []⟩)]
  tallies := []

/-- What holds of the platform in all that it can come to. -/
theorem workshop_rests :
    Platform.host.Steady (Platform.Resting workshop.surroundings workshop.machines)
      ∧ workshop.Resting workshop.surroundings workshop.machines := by
  refine ⟨Platform.host_steady fun entry hentry f hf => ?_, rfl, fun _ => rfl⟩
  obtain rfl := List.mem_singleton.1 hentry
  obtain rfl := List.mem_singleton.1 hf
  exact fun words globals => rfl

/-- Two sessions define and import by turns, then one of them is forked and
stores something of its own. -/
def turns : List (Move Platform) :=
  [⟨0, .addResolver Platform.nativeResolver⟩,
    ⟨0, .call none (.eval "(define x 1)")⟩,
    ⟨0, .fork⟩,
    ⟨1, .call none (.program "(define x 2) (import \"math\")")⟩,
    ⟨0, .call (some 9) (.eval "(import \"math\") (print x)")⟩,
    ⟨1, .fork⟩,
    ⟨2, .call none (.load "y.lisp" (.ok "(define y x)"))⟩,
    ⟨1, .call none (.eval "(define z 99999999999999999999) ((. z SetInt64) x)")⟩,
    ⟨1, .call none (.eval "(. adder add) (print z)")⟩]

/-- Seen from the second of three sessions. -/
theorem replies_alone_turns :
    let start := (Desk.empty workshop).addSession
      [("adder", .machine "adder"), ("print", .proc (.standard .print))] ⟨[], []⟩
    start.Undisturbed Platform.host 7 1 turns
      ∧ alone 1 1 turns = turns.take 4 ++ ⟨1, .fork⟩ :: turns.drop 7
      ∧ (start.history Platform.host 7 (alone 1 1 turns)).repliesTo 1
          = (start.history Platform.host 7 turns).repliesTo 1
      ∧ ∀ name, (start.history Platform.host 7 (alone 1 1 turns)).desk.sees 1 name
          = (start.history Platform.host 7 turns).desk.sees 1 name := by
  intro start
  have hproper : Proper (Platform.Resting workshop.surroundings workshop.machines) 1 turns := by
    simp [Proper, turns, Act.Allowed, Act.forks, Platform.nativeResolver_steady]
  have hquiet : start.Undisturbed Platform.host 7 1 turns := by decide +kernel
  exact ⟨hquiet, rfl, replies_alone workshop_rests.1 (List.forall_mem_nil _) workshop_rests.2 _ 7
    hproper 1 hquiet⟩

/-- A session stores a number in an integer that it has from the session it
was forked of. -/
def sharing : List (Move Platform) :=
  [⟨0, .call none (.eval "(define x 99999999999999999999)")⟩,
    ⟨0, .fork⟩,
    ⟨1, .call none (.eval "((. x SetInt64) 5)")⟩,
    ⟨0, .call none (.eval "(print x)")⟩]

/-- The values that a fork starts with are not copied: what one session
stores in them is seen by the other. -/
theorem stores_are_shared :
    ¬ ∀ (ok : Platform → Prop) (host : Host Platform), host.Steady ok →
      ∀ resolvers : List (Resolver Platform), (∀ r ∈ resolvers, r.Steady ok) →
      ∀ state, ok state → ∀ (root : Bindings) (depth : Nat) (moves : List (Move Platform)),
      Proper ok 1 moves → ∀ s,
        let start := (Desk.empty state).addSession root ⟨resolvers, []⟩
        (start.history host depth (alone s 1 moves)).repliesTo s
          = (start.history host depth moves).repliesTo s := by
  intro hall
  have hsame := hall _ _ workshop_rests.1 [] (List.forall_mem_nil _) workshop workshop_rests.2
    [("print", .proc (.standard .print))] 7 sharing
    (by simp [Proper, sharing, Act.Allowed, Act.forks]) 0
  have hprinted := congrArg (List.map (Option.map Response.printed)) hsame
  revert hprinted
  decide +kernel

end Desk

end LispShell
