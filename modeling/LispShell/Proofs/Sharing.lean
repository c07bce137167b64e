/-
A shared store starts each module once.

Any number of callers take their steps in any order. What one step can do
to the store is said once (`Stage.next_cases`): it leaves it as it is, or
it starts a module under a name that has none. The reason is that starting
looks at the store again, whatever the caller found when it looked. So a
store that is asked in any order keeps three things (`Sharing.Sound`): no
name has two modules, the log announces exactly the modules there are, and
every caller that was answered holds the handle that its name stands for.
A module that was started keeps its handle, since those that come later
have other names.

A failed step is one that leaves the store as it is, so nothing that
failed is in the way of a caller that comes later. A caller that nobody
interrupts finds what `resolve` finds (`Stage.steps_look`).
-/
import LispShell.Wasm.Sample
import LispShell.Wasm.Sharing
import Mathlib.Data.List.Nodup

namespace LispShell.Wasm

/-- The engine makes a module of the code: it takes the code, and the
module starts. -/
def Makes (engine : Engine) (code : String) : Prop :=
  ∃ b globals, engine code = .ok b ∧ b.start b.globals = .ok globals

/-- Whether a line of the log says that a module of the name was started. -/
def announces (name : String) (entry : LogEntry) : Bool :=
  entry.text == "instantiated wasm module" && entry.details.lookup "name" == some name

-- ============================================== what stores do

namespace Store

/-- There is no instance of a name that is not stored. -/
theorem get?_eq_none_iff {s : Store} {name : String} : s.get? name = none ↔ name ∉ s.names := by
  rw [get?, List.lookup_eq_none_iff]
  constructor
  · intro h hname
    obtain ⟨entry, hentry, rfl⟩ := List.mem_map.1 hname
    simpa using h entry hentry
  · intro h entry hentry
    rw [bne_iff_ne]
    rintro rfl
    exact h (List.mem_map_of_mem hentry)

/-- An instance is stored under its name. -/
theorem mem_names_of_get? {s : Store} {name : String} {i : Instance} (h : s.get? name = some i) :
    name ∈ s.names := by
  by_contra hname
  rw [get?_eq_none_iff.2 hname] at h
  cases h

/-- Changed globals leave the names. -/
theorem names_setGlobals (s : Store) (name : String) (globals : Globals) :
    (s.setGlobals name globals).names = s.names := by
  unfold setGlobals names
  rw [List.map_map]
  refine List.map_congr_left fun entry _ => ?_
  by_cases h : entry.1 = name
  · simp [h]
  · simp [h]

theorem handle_setGlobals (s : Store) (name : String) (globals : Globals) (other : String) :
    (s.setGlobals name globals).handle other = s.handle other := by
  unfold handle
  rw [names_setGlobals]

/-- A new module leaves the handles of the others alone. -/
theorem handle_cons_of_ne {s : Store} {name other : String} (h : name ≠ other) (i : Instance) :
    Store.handle ((name, i) :: s) other = s.handle other := by
  simp [handle, names, h]

/-- What starting a module can come to: there is one already, the engine
makes none, or the new one is in front. -/
theorem instantiate_cases (engine : Engine) (name code : String) (s : Store) :
    (name ∈ s.names ∧ s.instantiate engine name code = ⟨none, s, []⟩)
    ∨ (name ∉ s.names ∧ ¬ Makes engine code
      ∧ ∃ e, s.instantiate engine name code = ⟨some e, s, []⟩)
    ∨ (name ∉ s.names ∧ Makes engine code
      ∧ ∃ i entry, s.instantiate engine name code = ⟨none, (name, i) :: s, [entry]⟩
        ∧ ∀ other, announces other entry = decide (other = name)) := by
  unfold instantiate
  cases hget : s.get? name with
  | some i => exact .inl ⟨mem_names_of_get? hget, rfl⟩
  | none =>
    have hname := get?_eq_none_iff.1 hget
    cases hcode : engine code with
    | error what =>
      refine .inr (.inl ⟨hname, ?_, _, rfl⟩)
      rintro ⟨b, globals, hb, -⟩
      rw [hcode] at hb
      cases hb
    | ok b =>
      cases hstart : b.start b.globals with
      | error trap =>
        refine .inr (.inl ⟨hname, ?_, _, by simp only [hstart]; rfl⟩)
        rintro ⟨b', globals, hb, hglobals⟩
        obtain rfl : b = b' := Except.ok.inj (hcode.symm.trans hb)
        rw [hstart] at hglobals
        cases hglobals
      | ok globals =>
        have hmakes : Makes engine code := ⟨b, globals, hcode, hstart⟩
        refine .inr (.inr ⟨hname, hmakes, _, _, by simp only [hstart]; rfl, ?_⟩)
        intro other
        by_cases h : name = other
        · simp [announces, h]
        · simp [announces, h, Ne.symm h]

end Store

-- ============================================== what a step does

/-- A step that starts no module. An answer that it gives is the module
that is there. -/
structure Progress.Idle (p : Progress) (stage : Stage) (name : String) (s : Store) : Prop where
  store : p.store = s
  log : ∀ other, p.log.countP (announces other) = 0
  answer : ∀ h, p.stage = .done (.ok h) →
    stage = .done (.ok h) ∨ (name ∈ s.names ∧ h = s.handle name)

/-- A step that starts a module under a name that has none, and answers
it. -/
structure Progress.Starting (p : Progress) (name : String) (s : Store) (i : Instance) : Prop where
  fresh : name ∉ s.names
  store : p.store = (name, i) :: s
  log : ∀ other, p.log.countP (announces other) = [name].count other
  answer : p.stage = .done (.ok (p.store.handle name))

/-- Everything a step can do. -/
theorem Stage.next_cases (o : Outside) (paths : List String) (name : String) (s : Store)
    (stage : Stage) :
    (stage.next o paths name s).Idle stage name s
      ∨ ∃ i, (stage.next o paths name s).Starting name s i := by
  -- a caller that is still looking changes nothing but its stage; only `start` may add to the
  -- store
  cases stage with
  | look =>
    left
    rw [next]
    cases hget : s.get? name with
    | none => exact ⟨rfl, fun _ => rfl, fun _ h => nomatch h⟩
    | some i =>
      refine ⟨rfl, fun _ => rfl, fun h hh => .inr ⟨Store.mem_names_of_get? hget, ?_⟩⟩
      cases hh
      rfl
  | search directories =>
    left
    cases directories with
    | nil => exact ⟨rfl, fun _ => rfl, fun _ h => nomatch h⟩
    | cons directory rest =>
      rw [next]
      cases o.read (Path.join directory (name ++ ".wasm")) with
      | ok code =>
        refine ⟨rfl, fun other => ?_, fun _ h => nomatch h⟩
        simp [announces]
      | error e =>
        dsimp only
        split
        · exact ⟨rfl, fun _ => rfl, fun _ h => nomatch h⟩
        · exact ⟨rfl, fun _ => rfl, fun _ h => nomatch h⟩
  | start code =>
    rcases s.instantiate_cases o.engine name code with
      ⟨hname, heq⟩ | ⟨-, -, e, heq⟩ | ⟨hname, -, i, entry, heq, hentry⟩
    · left
      rw [next, heq]
      refine ⟨rfl, fun _ => rfl, fun h hh => .inr ⟨hname, ?_⟩⟩
      cases hh
      rfl
    · left
      rw [next, heq]
      exact ⟨rfl, fun _ => rfl, fun _ h => nomatch h⟩
    · right
      rw [next, heq]
      refine ⟨i, hname, rfl, fun other => ?_, rfl⟩
      by_cases h : other = name
      · simp [hentry, h]
      · simp [hentry, h, Ne.symm h]
  | done answer => exact .inl ⟨rfl, fun _ => rfl, fun h hh => .inl hh⟩

/-- Code that the engine makes a module of is answered, whether or not it
is needed. -/
theorem Stage.next_start {o : Outside} {code : String} (h : Makes o.engine code)
    (paths : List String) (name : String) (s : Store) :
    ∃ handle, ((Stage.start code).next o paths name s).stage = .done (.ok handle) := by
  rcases s.instantiate_cases o.engine name code with
    ⟨-, heq⟩ | ⟨-, hnot, -⟩ | ⟨-, -, i, entry, heq, -⟩
  · rw [next, heq]
    exact ⟨_, rfl⟩
  · exact absurd h hnot
  · rw [next, heq]
    exact ⟨_, rfl⟩

-- ============================================== one caller alone

/-- Who has an answer does nothing more. -/
theorem Stage.steps_done (o : Outside) (paths : List String) (name : String) (n : Nat)
    (answer : Except Failure Handle) (s : Store) :
    steps o paths name n (.done answer) s = ⟨.done answer, s, []⟩ := by
  induction n with
  | zero => rfl
  | succ n ih =>
    rw [steps, next, ih]
    rfl

/-- A caller that has looked and found nothing finds what `resolve` finds
in the directories that are left. -/
theorem Stage.steps_search {o : Outside} {name : String} {s : Store} (hs : s.get? name = none)
    (paths directories : List String) :
    ∃ answer, steps o paths name (directories.length + 2) (.search directories) s
        = ⟨.done answer, (resolve o.engine o.read directories name s).store,
            (resolve o.engine o.read directories name s).log⟩
      ∧ answer.map (fun h => Value.machine h.name)
        = (resolve o.engine o.read directories name s).answer := by
  -- over the directories that are left: one step for each, then one to start the module
  induction directories with
  | nil =>
    refine ⟨.error (.fault (.noModule name)), ?_, ?_⟩
    · rw [List.length_nil, steps, next, steps_done]
      simp [resolve, hs, findCode]
    · simp [resolve, hs, findCode, Except.map]
  | cons directory rest ih =>
    rw [List.length_cons, steps, next]
    cases hread : o.read (Path.join directory (name ++ ".wasm")) with
    | ok code =>
      dsimp only
      rw [steps, next]
      cases hfailure : (s.instantiate o.engine name code).failure with
      | none =>
        refine ⟨.ok ((s.instantiate o.engine name code).store.handle name), ?_, ?_⟩
        · dsimp only
          rw [steps_done]
          simp [resolve, hs, findCode, hread, hfailure]
        · simp [resolve, hs, findCode, hread, hfailure, Except.map, Store.handle]
      | some e =>
        refine ⟨.error e, ?_, ?_⟩
        · dsimp only
          rw [steps_done]
          simp [resolve, hs, findCode, hread, hfailure]
        · simp [resolve, hs, findCode, hread, hfailure, Except.map]
    | error e =>
      dsimp only
      by_cases hmissing : e.isMissingFile = true
      · rw [if_pos hmissing]
        have hresolve : resolve o.engine o.read (directory :: rest) name s
            = resolve o.engine o.read rest name s := by
          simp [resolve, hs, findCode, hread, hmissing]
        rw [hresolve]
        exact ih
      · rw [if_neg hmissing]
        refine ⟨.error (.within ("read " ++ Path.join directory (name ++ ".wasm")) e), ?_, ?_⟩
        · rw [steps_done]
          simp [resolve, hs, findCode, hread, hmissing]
        · simp [resolve, hs, findCode, hread, hmissing, Except.map]

/-- A caller that nobody interrupts finds what `resolve` finds. -/
theorem Stage.steps_look (o : Outside) (paths : List String) (name : String) (s : Store) :
    ∃ answer, steps o paths name (paths.length + 3) .look s
        = ⟨.done answer, (resolve o.engine o.read paths name s).store,
            (resolve o.engine o.read paths name s).log⟩
      ∧ answer.map (fun h => Value.machine h.name)
        = (resolve o.engine o.read paths name s).answer := by
  rw [steps, next]
  cases hs : s.get? name with
  | none => exact steps_search hs paths paths
  | some i =>
    refine ⟨.ok (s.handle name), ?_, ?_⟩
    · dsimp only
      rw [steps_done]
      simp [resolve, hs]
    · simp [resolve, hs, Except.map, Store.handle]

/-- A module that can be made is made. -/
theorem resolve_of_makes {o : Outside} {paths : List String} {name path code : String}
    (hcode : findCode o.read name paths = some (path, .ok code)) (h : Makes o.engine code)
    (s : Store) : (resolve o.engine o.read paths name s).answer = .ok (.machine name) := by
  unfold resolve
  cases s.get? name with
  | some i => rfl
  | none =>
    rw [hcode]
    dsimp only
    rcases s.instantiate_cases o.engine name code with
      ⟨-, heq⟩ | ⟨-, hnot, -⟩ | ⟨-, -, i, entry, heq, -⟩
    · rw [heq]
    · exact absurd h hnot
    · rw [heq]

-- ============================================== many callers

namespace Sharing

/-- What holds at a store whatever its callers do. -/
structure Sound (s : Sharing) : Prop where
  distinct : s.store.names.Nodup
  announced : ∀ name, s.log.countP (announces name) = s.store.names.count name
  answered : ∀ c ∈ s.callers, ∀ h, c.stage = .done (.ok h) →
    c.name ∈ s.store.names ∧ h = s.store.handle c.name

theorem sound_start : Sound ⟨[], [], []⟩ where
  distinct := List.nodup_nil
  announced _ := rfl
  answered := List.forall_mem_nil _

/-- A step is the step of one caller. -/
theorem act_proceed {s : Sharing} {place : Nat} {caller : Caller}
    (h : s.callers[place]? = some caller) (paths : List String) (o : Outside) :
    s.act paths (.proceed place o)
      = ⟨(caller.stage.next o paths caller.name s.store).store,
          s.callers.set place
            { caller with stage := (caller.stage.next o paths caller.name s.store).stage },
          s.log ++ (caller.stage.next o paths caller.name s.store).log⟩ := by
  rw [act, h]

theorem act_proceed_none {s : Sharing} {place : Nat} (h : s.callers[place]? = none)
    (paths : List String) (o : Outside) : s.act paths (.proceed place o) = s := by
  rw [act, h]

/-- A new caller has no answer yet. -/
theorem Sound.add {s : Sharing} (h : s.Sound) {caller : Caller}
    (hcaller : ∀ handle, caller.stage ≠ .done (.ok handle)) : (s.add caller).Sound where
  distinct := h.distinct
  announced := h.announced
  answered := by
    intro c hc handle hdone
    rcases List.mem_append.1 hc with hc | hc
    · exact h.answered c hc handle hdone
    · obtain rfl := List.mem_singleton.1 hc
      exact absurd hdone (hcaller handle)

/-- A step keeps the store and the log in agreement. -/
theorem Sound.proceed {s : Sharing} (h : s.Sound) (paths : List String) (place : Nat)
    (o : Outside) : (s.act paths (.proceed place o)).Sound := by
  cases hcaller : s.callers[place]? with
  | none =>
    rw [act_proceed_none hcaller]
    exact h
  | some caller =>
    have hmem : caller ∈ s.callers := List.mem_of_getElem? hcaller
    rw [act_proceed hcaller]
    rcases caller.stage.next_cases o paths caller.name s.store with hidle | ⟨i, hstarting⟩
    · obtain ⟨hstore, hlog, hanswer⟩ := hidle
      rw [hstore]
      refine ⟨h.distinct, fun name => ?_, fun c hc handle hdone => ?_⟩
      · rw [List.countP_append, hlog, Nat.add_zero, h.announced]
      · rcases List.mem_or_eq_of_mem_set hc with hc | rfl
        · exact h.answered c hc handle hdone
        · rcases hanswer handle hdone with hbefore | hfound
          · exact h.answered caller hmem handle hbefore
          · exact hfound
    · obtain ⟨hfresh, hstore, hlog, hanswer⟩ := hstarting
      rw [hstore] at hanswer ⊢
      refine ⟨?_, fun name => ?_, fun c hc handle hdone => ?_⟩
      · exact List.nodup_cons.2 ⟨hfresh, h.distinct⟩
      · rw [List.countP_append, hlog, h.announced]
        show _ = (caller.name :: s.store.names).count name
        rw [List.count_cons, List.count_cons, List.count_nil]
        omega
      · rcases List.mem_or_eq_of_mem_set hc with hc | rfl
        · obtain ⟨hname, hhandle⟩ := h.answered c hc handle hdone
          -- whoever has an answer already asked for another name, as this one was not stored
          have hne : caller.name ≠ c.name := by
            intro heq
            rw [heq] at hfresh
            exact hfresh hname
          refine ⟨List.mem_cons_of_mem _ hname, ?_⟩
          rw [Store.handle_cons_of_ne hne, hhandle]
        · refine ⟨List.mem_cons_self, ?_⟩
          have hsame := hanswer.symm.trans hdone
          cases hsame
          rfl

/-- So does the work of a module. -/
theorem Sound.work {s : Sharing} (h : s.Sound) (paths : List String) (name : String)
    (globals : Globals) : (s.act paths (.work name globals)).Sound := by
  refine ⟨?_, fun other => ?_, fun c hc handle hdone => ?_⟩
  · show (s.store.setGlobals name globals).names.Nodup
    rw [Store.names_setGlobals]
    exact h.distinct
  · show s.log.countP _ = (s.store.setGlobals name globals).names.count other
    rw [Store.names_setGlobals]
    exact h.announced other
  · show c.name ∈ (s.store.setGlobals name globals).names
      ∧ handle = (s.store.setGlobals name globals).handle c.name
    rw [Store.names_setGlobals, Store.handle_setGlobals]
    exact h.answered c hc handle hdone

/-- So does any action. -/
theorem Sound.act {s : Sharing} (h : s.Sound) (paths : List String) (action : Action) :
    (s.act paths action).Sound := by
  cases action with
  | resolve interpreter name => exact h.add fun _ heq => nomatch heq
  | instantiate interpreter name code => exact h.add fun _ heq => nomatch heq
  | proceed place o => exact h.proceed paths place o
  | work name globals => exact h.work paths name globals

/-- Whatever happens, in any order. -/
theorem Sound.run (paths : List String) (actions : List Action) :
    (Sharing.run paths actions).Sound := by
  have hfold : ∀ {s : Sharing}, s.Sound → (actions.foldl (Sharing.act paths) s).Sound := by
    induction actions with
    | nil => exact fun h => h
    | cons action rest ih => exact fun h => ih (h.act paths action)
  exact hfold sound_start

-- ============================================== a handle is kept

/-- A name that is stored keeps its handle in every action. -/
theorem handle_act {s : Sharing} {name : String} (hname : name ∈ s.store.names)
    (paths : List String) (action : Action) :
    name ∈ (s.act paths action).store.names
      ∧ (s.act paths action).store.handle name = s.store.handle name := by
  cases action with
  | resolve interpreter other => exact ⟨hname, rfl⟩
  | instantiate interpreter other code => exact ⟨hname, rfl⟩
  | proceed place o =>
    cases hcaller : s.callers[place]? with
    | none =>
      rw [act_proceed_none hcaller]
      exact ⟨hname, rfl⟩
    | some caller =>
      rw [act_proceed hcaller]
      rcases caller.stage.next_cases o paths caller.name s.store with hidle | ⟨i, hstarting⟩
      · rw [hidle.store]
        exact ⟨hname, rfl⟩
      · have hne : caller.name ≠ name := by
          rintro rfl
          exact hstarting.fresh hname
        rw [hstarting.store]
        exact ⟨List.mem_cons_of_mem _ hname, Store.handle_cons_of_ne hne i⟩
  | work other globals =>
    show name ∈ (s.store.setGlobals other globals).names
      ∧ (s.store.setGlobals other globals).handle name = s.store.handle name
    rw [Store.names_setGlobals, Store.handle_setGlobals]
    exact ⟨hname, rfl⟩

/-- It keeps it over all of them. -/
theorem handle_foldl {s : Sharing} {name : String} (hname : name ∈ s.store.names)
    (paths : List String) (actions : List Action) :
    (actions.foldl (act paths) s).store.handle name = s.store.handle name := by
  induction actions generalizing s with
  | nil => rfl
  | cons action rest ih =>
    obtain ⟨hname', hhandle⟩ := handle_act hname paths action
    rw [List.foldl_cons, ih hname', hhandle]

theorem run_append (paths : List String) (actions later : List Action) :
    run paths (actions ++ later) = later.foldl (act paths) (run paths actions) :=
  List.foldl_append

/-- An answer given at any time is the handle that the name stands for at
the end, and there was one start then. -/
theorem answer_eq {paths : List String} {earlier later : List Action} {c : Caller} {h : Handle}
    (hc : c ∈ (run paths earlier).callers) (hdone : c.stage = .done (.ok h)) :
    h = (run paths (earlier ++ later)).store.handle c.name
      ∧ (run paths earlier).log.countP (announces c.name) = 1 := by
  have hsound := Sound.run paths earlier
  obtain ⟨hname, hhandle⟩ := hsound.answered c hc h hdone
  constructor
  · rw [run_append, handle_foldl hname, hhandle]
  · rw [hsound.announced, List.count_eq_one_of_mem hsound.distinct hname]

-- ============================================== failures and later callers

/-- A step that ends in a failure leaves the store as it was. -/
theorem store_of_failed {s : Sharing} {paths : List String} {place : Nat} {o : Outside}
    {e : Failure}
    (h : (s.act paths (.proceed place o)).callers[place]?.map (·.stage) = some (.done (.error e))) :
    (s.act paths (.proceed place o)).store = s.store := by
  cases hcaller : s.callers[place]? with
  | none => rw [act_proceed_none hcaller]
  | some caller =>
    have hplace : place < s.callers.length := (List.getElem?_eq_some_iff.1 hcaller).1
    rw [act_proceed hcaller] at h ⊢
    rw [List.getElem?_set_self hplace] at h
    rcases caller.stage.next_cases o paths caller.name s.store with hidle | ⟨i, hstarting⟩
    · exact hidle.store
    · rw [Option.map_some, hstarting.answer] at h
      cases h

/-- Steps of one caller with nobody between them. -/
theorem foldl_proceed {s : Sharing} {place : Nat} {caller : Caller}
    (h : s.callers[place]? = some caller) (paths : List String) (o : Outside) (n : Nat) :
    ((List.replicate n (Action.proceed place o)).foldl (act paths) s).callers[place]?
      = some { caller with stage := (caller.stage.steps o paths caller.name n s.store).stage } := by
  induction n generalizing s caller with
  | zero => exact h
  | succ n ih =>
    have hplace : place < s.callers.length := (List.getElem?_eq_some_iff.1 h).1
    have hnext : (s.act paths (.proceed place o)).callers[place]?
        = some { caller with
          stage := (caller.stage.next o paths caller.name s.store).stage } := by
      rw [act_proceed h, List.getElem?_set_self hplace]
    rw [List.replicate_succ, List.foldl_cons, ih hnext, act_proceed h]
    rfl

theorem callers_add (s : Sharing) (caller : Caller) :
    (s.add caller).callers[s.callers.length]? = some caller := by
  rw [add, List.getElem?_append_right (Nat.le_refl _), Nat.sub_self]
  rfl

/-- A caller that brings code that the engine makes a module of is
answered. -/
theorem instantiate_answered {o : Outside} {code : String} (h : Makes o.engine code)
    (s : Sharing) (paths : List String) (interpreter : Nat) (name : String) :
    ∃ handle, ([.instantiate interpreter name code, .proceed s.callers.length o].foldl
        (act paths) s).callers[s.callers.length]?
      = some ⟨interpreter, name, .done (.ok handle)⟩ := by
  obtain ⟨handle, hhandle⟩ := Stage.next_start h paths name s.store
  have hadded := s.callers_add ⟨interpreter, name, .start code⟩
  have hsteps := foldl_proceed hadded paths o 1
  refine ⟨handle, hsteps.trans ?_⟩
  simp only [Stage.steps]
  rw [← hhandle]
  rfl

/-- A caller that finds code that the engine makes a module of is
answered. -/
theorem resolve_answered {o : Outside} {paths : List String} {name path code : String}
    (hcode : findCode o.read name paths = some (path, .ok code)) (h : Makes o.engine code)
    (s : Sharing) (interpreter : Nat) :
    ∃ handle, ((.resolve interpreter name
        :: List.replicate (paths.length + 3) (.proceed s.callers.length o)).foldl
        (act paths) s).callers[s.callers.length]?
      = some ⟨interpreter, name, .done (.ok handle)⟩ := by
  obtain ⟨answer, hsteps, hanswer⟩ := Stage.steps_look o paths name s.store
  rw [resolve_of_makes hcode h] at hanswer
  cases answer with
  | error e => cases hanswer
  | ok handle =>
    refine ⟨handle, ?_⟩
    have hadded := s.callers_add ⟨interpreter, name, .look⟩
    have hfold := foldl_proceed hadded paths o (paths.length + 3)
    rw [show (s.add ⟨interpreter, name, .look⟩).store = s.store from rfl, hsteps] at hfold
    exact hfold

/-- A module is started at most once, whoever asks and whenever. After any
actions in any order: the log announces at most one start under a name, as
many as the store has modules of it; every answer that was given for the
name at any time is the same handle, and there was one start then; a step
that fails leaves the store as it was; and a caller that comes after it
all is answered if the engine makes a module of the code it brings or
finds. -/
theorem started_once (paths : List String) (actions : List Action) (name : String) :
    ((run paths actions).log.countP (announces name) ≤ 1
      ∧ (run paths actions).store.names.count name
        = (run paths actions).log.countP (announces name))
    ∧ (∃ handle, ∀ earlier later, actions = earlier ++ later →
        ∀ c ∈ (run paths earlier).callers, c.name = name → ∀ h, c.stage = .done (.ok h) →
          h = handle ∧ (run paths earlier).log.countP (announces name) = 1)
    ∧ (∀ place o e,
        (run paths (actions ++ [.proceed place o])).callers[place]?.map (·.stage)
            = some (.done (.error e)) →
          (run paths (actions ++ [.proceed place o])).store = (run paths actions).store)
    ∧ (∀ interpreter o code, Makes o.engine code →
        ∃ handle, (run paths (actions ++ [.instantiate interpreter name code,
            .proceed (run paths actions).callers.length o])).callers[
              (run paths actions).callers.length]?
          = some ⟨interpreter, name, .done (.ok handle)⟩)
    ∧ ∀ interpreter o path code, findCode o.read name paths = some (path, .ok code) →
        Makes o.engine code →
        ∃ handle, (run paths (actions ++ .resolve interpreter name
            :: List.replicate (paths.length + 3)
              (.proceed (run paths actions).callers.length o))).callers[
                (run paths actions).callers.length]?
          = some ⟨interpreter, name, .done (.ok handle)⟩ := by
  have hsound := Sound.run paths actions
  refine ⟨⟨?_, (hsound.announced name).symm⟩, ?_, ?_, ?_, ?_⟩
  · rw [hsound.announced name]
    exact List.nodup_iff_count_le_one.1 hsound.distinct name
  · refine ⟨(run paths actions).store.handle name, ?_⟩
    rintro earlier later rfl c hc rfl h hdone
    exact answer_eq hc hdone
  · intro place o e hfailed
    rw [run_append] at hfailed ⊢
    exact store_of_failed hfailed
  · intro interpreter o code hmakes
    rw [run_append]
    exact instantiate_answered hmakes _ paths interpreter name
  · intro interpreter o path code hcode hmakes
    rw [run_append]
    exact resolve_answered hcode hmakes _ interpreter

/-- The sample engine, and files that all hold the same code. -/
def outsideWith (code : String) : Outside :=
  ⟨Sample.engine, fun _ => .ok code⟩

/-- Two interpreters look before there is a module, and read different
code. The one whose code is no module fails; a third brings code and is
first to start a module; the second one starts after it. -/
def race : List Action :=
  [.resolve 0 "m", .resolve 1 "m", .proceed 0 (outsideWith "junk"),
    .proceed 1 (outsideWith "empty"), .proceed 0 (outsideWith "junk"),
    .proceed 1 (outsideWith "empty"), .proceed 0 (outsideWith "junk"),
    .instantiate 2 "m" "empty", .proceed 2 (outsideWith "junk"),
    .proceed 1 (outsideWith "empty")]

/-- Two callers that race, after one that found a broken file. -/
theorem started_once_race :
    (run ["lib"] race).callers.map (·.stage)
      = [.done (.error (.within "compile wasm module m" (.other "invalid magic number"))),
          .done (.ok ⟨"m", 1⟩), .done (.ok ⟨"m", 1⟩)]
    ∧ (run ["lib"] race).log.countP (announces "m") ≤ 1
    ∧ (∃ handle, ∀ earlier later, race = earlier ++ later →
        ∀ c ∈ (run ["lib"] earlier).callers, c.name = "m" → ∀ h, c.stage = .done (.ok h) →
          h = handle ∧ (run ["lib"] earlier).log.countP (announces "m") = 1)
    ∧ (run ["lib"] (race.take 7)).store = (run ["lib"] (race.take 6)).store
    ∧ ∃ handle, (run ["lib"] (race.take 7 ++ [.instantiate 2 "m" "empty",
          .proceed 2 (outsideWith "junk")])).callers[2]?
        = some ⟨2, "m", .done (.ok handle)⟩ := by
  obtain ⟨⟨hcount, -⟩, hhandle, -, -, -⟩ := started_once ["lib"] race "m"
  obtain ⟨-, -, hfailed, -, -⟩ := started_once ["lib"] (race.take 6) "m"
  obtain ⟨-, -, -, hlater, -⟩ := started_once ["lib"] (race.take 7) "m"
  refine ⟨rfl, hcount, hhandle, ?_, ?_⟩
  · exact hfailed 0 (outsideWith "junk") _ rfl
  · exact hlater 2 (outsideWith "junk") "empty" ⟨Sample.empty, [], rfl, rfl⟩

end Sharing

end LispShell.Wasm
