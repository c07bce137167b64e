/-
A module is resolved once and for all, by the earliest resolver that
knows it.

Sessions that share an import table ask for modules, add resolvers, run
programs and are forked, in any order. Resolvers may be anything: what one
answers may depend on the state of the host and may be different every
time. Still (`import_once`)

- a name that is not in the table is put to the resolvers in the order
  they were added, up to the first that does not say it is missing, and
  that one's answer is the answer;
- an answer with a value goes into the table, and from then on it is the
  answer for every session, and nobody is asked;
- a failure leaves the table as it was, so the next time all resolvers are
  asked again, and those that were added meanwhile.

# Method

`ask_consulted` is the rule for one round of questions. What a table
holds is kept by every run of a session, since evaluating only ever adds
names that are not there (`Machine.Holding`, a simulation of the run by
itself); so it is kept by every step, and by induction by every history.
-/
import LispShell.Proofs.Isolation

namespace LispShell

variable {σ : Type}

-- ====================================================== asking in turn

/-- Whether an answer says that the module is missing. -/
def isMissing : Except Failure Value → Bool
  | .ok _ => false
  | .error e => e.has .missingModule

/-- The resolver and the name of a question to a resolver. -/
def Event.question? : Event → Option (Nat × String)
  | .asked resolver module => some (resolver, module)
  | _ => none

/-- The questions to resolvers among events. -/
def Event.questions (events : List Event) : List (Nat × String) :=
  events.filterMap Event.question?

namespace Imports

/-- What all resolvers answer, asked one after the other, each in the
state that the one before left; and the state after the last. -/
def inquire (name : String) : List (Resolver σ) → σ → List (Except Failure Value) × σ
  | [], state => ([], state)
  | r :: rest, state =>
    let found := r name state
    let further := inquire name rest found.state
    (found.answer :: further.1, further.2)

/-- The first `count` resolvers were asked: all of them say the module is
missing but the last, whose answer it is; or there is no further one, and
the module is missing. -/
structure Consulted (name : String) (resolvers : List (Resolver σ)) (state : σ) (count : Nat)
    (answer : Except Failure Value) (last : σ) : Prop where
  count_le : count ≤ resolvers.length
  state_eq : (inquire name (resolvers.take count) state).2 = last
  verdict :
    (∃ passed, (inquire name (resolvers.take count) state).1 = passed ++ [answer]
        ∧ (∀ a ∈ passed, isMissing a = true) ∧ isMissing answer = false)
      ∨ count = resolvers.length
        ∧ (∀ a ∈ (inquire name resolvers state).1, isMissing a = true)
        ∧ answer = .error (.fault (.noModule name))

/-- A resolver in front that says the module is missing. -/
theorem Consulted.cons {name : String} {r : Resolver σ} {rest : List (Resolver σ)} {state : σ}
    {count : Nat} {answer : Except Failure Value} {last : σ}
    (hmissing : isMissing (r name state).answer = true)
    (h : Consulted name rest (r name state).state count answer last) :
    Consulted name (r :: rest) state (count + 1) answer last where
  count_le := Nat.succ_le_succ h.count_le
  state_eq := h.state_eq
  verdict := by
    rcases h.verdict with ⟨passed, hpassed, hall, hlast⟩ | ⟨hcount, hall, hanswer⟩
    · left
      refine ⟨(r name state).answer :: passed, ?_, List.forall_mem_cons.2 ⟨hmissing, hall⟩, hlast⟩
      show (r name state).answer :: (inquire name (rest.take count) _).1 = _
      rw [hpassed]
      rfl
    · right
      exact ⟨congrArg (· + 1) hcount, List.forall_mem_cons.2 ⟨hmissing, hall⟩, hanswer⟩

/-- One resolver's part of the journal holds one question. -/
theorem questions_own (log : List LogEntry) (index : Nat) (name : String) :
    Event.questions ((log.map Event.logged).reverse ++ [Event.asked index name]).reverse
      = [(index, name)] := by
  have hlog : (log.map Event.logged).filterMap Event.question? = [] := by
    rw [List.filterMap_eq_nil_iff]
    intro e he
    obtain ⟨entry, -, rfl⟩ := List.mem_map.1 he
    rfl
  unfold Event.questions
  rw [List.reverse_append, List.reverse_reverse, List.filterMap_append, hlog]
  rfl

/-- Asking goes through the resolvers in order and stops at the first that
has something to say. -/
theorem ask_consulted (name : String) (resolvers : List (Resolver σ)) (state : σ) (index : Nat) :
    ∃ count,
      Consulted name resolvers state count (ask name state index resolvers).answer
          (ask name state index resolvers).state
        ∧ Event.questions (ask name state index resolvers).events.reverse
          = (List.range' index count).map (·, name) := by
  induction resolvers generalizing state index with
  | nil =>
    refine ⟨0, ⟨Nat.le_refl 0, rfl, .inr ⟨rfl, List.forall_mem_nil _, rfl⟩⟩, rfl⟩
  | cons r rest ih =>
    have hown := questions_own (r name state).log index name
    -- if the resolver has something to say, it is the last that is asked
    have hstop : isMissing (r name state).answer = false →
        Consulted name (r :: rest) state 1 (r name state).answer (r name state).state := by
      intro hanswer
      exact ⟨Nat.succ_le_succ (Nat.zero_le _), rfl,
        .inl ⟨[], rfl, List.forall_mem_nil _, hanswer⟩⟩
    unfold ask
    dsimp only
    cases hanswer : (r name state).answer with
    | ok v =>
      rw [hanswer] at hstop
      exact ⟨1, hstop rfl, hown⟩
    | error e =>
      rw [hanswer] at hstop
      dsimp only
      by_cases hmissing : e.has .missingModule = true
      · rw [if_pos hmissing]
        obtain ⟨count, hcount, hquestions⟩ := ih (r name state).state (index + 1)
        have hfirst : isMissing (r name state).answer = true := by
          rw [hanswer]
          exact hmissing
        refine ⟨count + 1, hcount.cons hfirst, ?_⟩
        dsimp only
        rw [List.reverse_append]
        unfold Event.questions at hown hquestions ⊢
        rw [List.filterMap_append, hown, hquestions, List.range'_succ]
        rfl
      · rw [if_neg hmissing]
        exact ⟨1, hstop (Bool.eq_false_iff.2 hmissing), hown⟩

end Imports

-- ====================================================== what a run keeps

/-- A run beside itself: the resolvers of an import table and what was
imported into it are still there. -/
structure Machine.Holding (base : Imports σ) (m m' : Machine σ) : Prop where
  frames : m'.frames = m.frames
  imports : m'.imports = m.imports
  host : m'.host = m.host
  cells : m'.cells = m.cells
  made : m'.made = m.made
  queries : m'.queries = m.queries
  resolvers : m.imports.resolvers = base.resolvers
  kept : ∀ name v, base.imported.lookup name = some v → m.imports.imported.lookup name = some v

namespace Machine.Holding

variable {base : Imports σ}

/-- At the start the table holds what it holds. -/
theorem refl (m : Machine σ) : Holding m.imports m m :=
  ⟨rfl, rfl, rfl, rfl, rfl, rfl, rfl, fun _ _ h => h⟩

/-- The same is stored. -/
theorem store_related (stored : Cells) :
    Eval.Related (Holding base) (Eval.store stored) (Eval.store stored) := by
  unfold Eval.store
  split
  · exact .pure ()
  · exact .modify fun _ _ h => { h with cells := congrArg (_ ++ ·) h.cells }

/-- A script does not touch the table. -/
theorem script_alike (base : Imports σ) (script : Script σ) :
    Script.Alike (Holding base) script script := by
  induction script with
  | finish answer => exact .finish answer
  | eval code next ih => exact .eval code ih
  | get next ih =>
    refine .get fun m m' h => ?_
    rw [h.host, h.cells]
    exact ih m.host m.cells
  | set state stored next ih =>
    exact .set (fun _ _ h => { h with host := rfl }) (store_related stored) ih
  | lookup frame name next ih => exact .lookup (fun m m' h => by rw [h.frames]) ih
  | bind frame name value next ih =>
    refine .bind (.modify fun m m' h => ?_) ih
    exact { h with frames := by rw [h.frames] }

/-- Only a name that is not in the table is ever added to it. -/
theorem importModule (session : Nat) (name : String) :
    Eval.Related (Holding base) (Eval.importModule session name)
      (Eval.importModule session name) := by
  unfold Eval.importModule
  refine .bind_get fun m m' h => ?_
  rw [h.imports, h.host]
  cases hentry : m.imports.imported.lookup name with
  | some v => exact .pure v
  | none =>
    -- the table grows, so a name it does not hold now was not held at the start
    have hnew : base.imported.lookup name = none := by
      cases hbase : base.imported.lookup name with
      | none => rfl
      | some v =>
        rw [h.kept name v hbase] at hentry
        cases hentry
    refine (Eval.Related.modify fun _ _ h => ?_).bind fun _ => ?_
    · exact { h with host := rfl }
    · cases (Imports.ask name m.host 0 m.imports.resolvers).answer with
      | error e => exact .fail e
      | ok v =>
        have hmark : Eval.Related (Holding base) (Eval.newMark session) (Eval.newMark session) :=
          .newMark (fun h => h.made) (fun h => h.cells) fun _ h => { h with made := rfl }
        refine (Eval.Related.settle hmark v).bind fun v => ?_
        refine (Eval.Related.modify fun _ _ h => ?_).bind fun _ => .pure v
        refine { h with imports := by rw [h.imports], kept := fun key w hkey => ?_ }
        have hne : key ≠ name := by
          rintro rfl
          rw [hnew] at hkey
          cases hkey
        show ((name, v) :: _).lookup key = some w
        rw [List.lookup_cons, beq_false_of_ne hne]
        exact h.kept key w hkey

/-- So a run keeps what the table holds. -/
theorem simulation (base : Imports σ) (host : Host σ) (site : Site) :
    Simulation host site site (Holding base) where
  session := rfl
  checkpoint := .checkpoint site.patience (fun h => h.queries)
    fun h => { h with queries := congrArg (· + 1) h.queries }
  record e := .modify fun _ _ h => { h with }
  cells h := h.cells
  store := store_related
  made h := h.made
  count _ h := { h with made := rfl }
  visible h name := by rw [h.frames]
  define name v := .modify fun _ _ h => { h with frames := by rw [h.frames] }
  importModule name := importModule site.session name
  found h module name := by rw [h.host]
  listed h module := by rw [h.host]
  call p args := script_alike base _
  invoke module name args := script_alike base _

end Machine.Holding

-- ====================================================== deeds

/-- What a session may do: ask for a module, or anything else. -/
inductive Deed (σ : Type) where
  | resolve (name : String)
  | act (a : Act σ)

/-- The resolver that a deed adds. -/
def Deed.added? : Deed σ → Option (Resolver σ)
  | .act (.addResolver r) => some r
  | _ => none

namespace Desk

variable {d : Desk σ} {resolvers : List (Resolver σ)} {name : String}

-- ====================================================== desks with one table

/-- A desk at which all sessions share one import table, with the given
resolvers. A session that there is not counts as one without bindings. -/
structure Common (d : Desk σ) (resolvers : List (Resolver σ)) : Prop where
  tables : 0 < d.tables.length
  shared : ∀ s, (d.session s).table = 0
  resolvers : d.imports.resolvers = resolvers.map (Resolver.naming 0)

namespace Common

/-- Every session uses the one table. -/
theorem table_eq (h : d.Common resolvers) (s : Nat) : d.table s = d.imports := by
  unfold table imports
  rw [h.shared s]

/-- What a run leaves goes into it. -/
theorem imports_putBack (h : d.Common resolvers) (s : Nat) (m : Machine σ) :
    (d.putBack s m).imports = m.imports := by
  show (d.tables.set (d.session s).table m.imports).getD 0 ⟨[], []⟩ = _
  rw [h.shared s, List.getD_eq_getElem?_getD, List.getElem?_set_self h.tables]
  rfl

/-- A computation that changes nothing leaves the desk as it was. -/
theorem putBack_machine (h : d.Common resolvers) (s : Nat) : d.putBack s (d.machine s) = d := by
  by_cases hs : s < d.sessions.length
  · exact Desk.putBack_machine ⟨hs, (h.shared s).symm ▸ h.tables⟩
  · have htables : d.tables.set (d.session s).table (d.table s) = d.tables := by
      rw [h.table_eq, h.shared s]
      unfold imports
      rw [List.getD_eq_getElem?_getD, List.getElem?_eq_getElem h.tables]
      exact List.set_getElem_self h.tables
    have hsessions : (d.sessions.modify s fun x => { x with made := (d.session s).made })
        = d.sessions :=
      List.modify_eq_self (Nat.not_lt.1 hs)
    show Desk.mk d.frames (d.tables.set (d.session s).table (d.table s))
      (d.sessions.modify s fun x => { x with made := (d.session s).made }) d.host d.cells = d
    rw [htables, hsessions]

/-- A run that keeps the resolvers keeps the table common. -/
theorem putBack (h : d.Common resolvers) (s : Nat) {m : Machine σ}
    (hm : m.imports.resolvers = d.imports.resolvers) : (d.putBack s m).Common resolvers where
  tables := by
    show 0 < (d.tables.set _ _).length
    rw [List.length_set]
    exact h.tables
  shared t := by
    rw [tableOf_putBack]
    exact h.shared t
  resolvers := by rw [h.imports_putBack, hm, h.resolvers]

/-- A fork shares it. -/
theorem fork (h : d.Common resolvers) (s : Nat) : (d.fork s).Common resolvers where
  tables := h.tables
  shared t := by
    by_cases ht : t < (d.fork s).sessions.length
    · rcases fork_cases ht with ht | rfl
      · rw [session_fork ht]
        exact h.shared t
      · rw [session_fork_new]
        exact h.shared s
    · unfold session
      rw [List.getD_eq_getElem?_getD, List.getElem?_eq_none (Nat.not_lt.1 ht)]
      rfl
  resolvers := h.resolvers

/-- A resolver is added to it. -/
theorem imports_addResolver (h : d.Common resolvers) (s : Nat) (r : Resolver σ) :
    (d.addResolver s r).imports = d.imports.addResolver (r.naming 0) := by
  show (d.tables.modify (d.session s).table fun t =>
    t.addResolver (r.naming (d.session s).table)).getD 0 ⟨[], []⟩ = _
  rw [h.shared s]
  unfold imports
  rw [List.getD_eq_getElem?_getD, List.getD_eq_getElem?_getD, List.getElem?_modify_eq,
    List.getElem?_eq_getElem h.tables]
  rfl

/-- And all have it then. -/
theorem addResolver (h : d.Common resolvers) (s : Nat) (r : Resolver σ) :
    (d.addResolver s r).Common (resolvers ++ [r]) where
  tables := by
    show 0 < (d.tables.modify _ _).length
    rw [List.length_modify]
    exact h.tables
  shared := h.shared
  resolvers := by
    rw [h.imports_addResolver, List.map_append, ← h.resolvers]
    rfl

/-- A first session has a table of its own. -/
theorem start (state : σ) (root : Bindings) (resolvers : List (Resolver σ)) :
    ((Desk.empty state).addSession root ⟨resolvers, []⟩).Common resolvers where
  tables := Nat.zero_lt_one
  shared s := by
    cases s with
    | zero => rfl
    | succ s => rfl
  resolvers := rfl

end Common

-- ====================================================== one request

/-- Asks for a module for a session. -/
def resolve (d : Desk σ) (s : Nat) (name : String) : Option (Run σ Value) :=
  d.run s (Eval.importModule s name)

/-- What a request for a module comes to. -/
structure Resolves (d : Desk σ) (name : String) (r : Run σ Value) : Prop where
  /-- What is in the table is the answer, and nothing else happens. -/
  cached : ∀ v, d.imports.imported.lookup name = some v →
    r.answer = .ok v ∧ Event.questions r.events = [] ∧ r.desk = d
  /-- Otherwise the resolvers decide. -/
  consulted : d.imports.imported.lookup name = none →
    ∃ count, Imports.Consulted name d.imports.resolvers d.host count r.answer r.desk.host
      ∧ Event.questions r.events = (List.range count).map (·, name)
  remembered : ∀ v, r.answer = .ok v → r.desk.imports.imported.lookup name = some v
  failed : ∀ e, r.answer = .error e →
    d.imports.imported.lookup name = none ∧ r.desk.imports = d.imports
  others : ∀ other, other ≠ name →
    r.desk.imports.imported.lookup other = d.imports.imported.lookup other

/-- What is said about a request after the resolvers were asked, given the
table they leave. -/
theorem Common.resolves_of_asked (h : d.Common resolvers) (s : Nat)
    (hentry : d.imports.imported.lookup name = none) {after : Imports σ}
    {answer : Except Failure Value}
    (hanswer : (Imports.ask name d.host 0 d.imports.resolvers).answer = answer)
    (hok : ∀ v, answer = .ok v → after.imported.lookup name = some v)
    (herror : ∀ e, answer = .error e → after = d.imports)
    (hothers : ∀ other, other ≠ name →
      after.imported.lookup other = d.imports.imported.lookup other) :
    d.Resolves name
      ⟨answer, ((Imports.ask name d.host 0 d.imports.resolvers).events ++ []).reverse,
        d.putBack s { d.machine s with
          imports := after
          host := (Imports.ask name d.host 0 d.imports.resolvers).state
          journal := (Imports.ask name d.host 0 d.imports.resolvers).events ++ [] }⟩ := by
  obtain ⟨count, hcount, hquestions⟩ := Imports.ask_consulted name d.imports.resolvers d.host 0
  rw [hanswer] at hcount
  constructor
  · intro v hv
    rw [hentry] at hv
    cases hv
  · intro _
    refine ⟨count, hcount, ?_⟩
    rw [List.append_nil, hquestions, List.range_eq_range']
  · intro v hv
    rw [h.imports_putBack]
    exact hok v hv
  · intro e he
    rw [h.imports_putBack]
    exact ⟨hentry, herror e he⟩
  · intro other hother
    rw [h.imports_putBack]
    exact hothers other hother

/-- A request is answered from the table, or with a failure of the
resolvers, or with a value of theirs. -/
theorem Common.resolve_cases (h : d.Common resolvers) (s : Nat) (name : String) :
    ∃ r, d.resolve s name = some r ∧ d.Resolves name r ∧ r.desk.Common resolvers := by
  have himports : (d.machine s).imports = d.imports := h.table_eq s
  cases hentry : d.imports.imported.lookup name with
  | some v =>
    have hrun := run_done (Eval.importModule_cached (himports.symm ▸ hentry) s)
    rw [h.putBack_machine] at hrun
    refine ⟨_, hrun, ⟨?_, ?_, ?_, ?_, fun _ _ => rfl⟩, h⟩
    · intro w hw
      rw [hentry] at hw
      cases hw
      exact ⟨rfl, rfl, rfl⟩
    · intro hnone
      rw [hentry] at hnone
      cases hnone
    · rintro w ⟨rfl⟩
      exact hentry
    · intro e he
      cases he
  | none =>
    have hmissing : (d.machine s).imports.imported.lookup name = none := himports.symm ▸ hentry
    cases hask : (Imports.ask name d.host 0 d.imports.resolvers).answer with
    | error e =>
      have hrun := run_done (Eval.importModule_failed hmissing (himports.symm ▸ hask) s)
      rw [himports] at hrun
      refine ⟨_, hrun, h.resolves_of_asked s hentry hask ?_ (fun _ _ => rfl) fun _ _ => rfl,
        h.putBack s rfl⟩
      intro v hv
      cases hv
    | ok v =>
      -- the resolvers of a table name their modules, so the value is stored as it is
      have hsettled : v.Settled := by
        refine Imports.ask_settled (fun r hr => ?_) hask
        rw [h.resolvers] at hr
        obtain ⟨r, -, rfl⟩ := List.mem_map.1 hr
        exact Resolver.naming_settled 0 r
      have hrun := run_done (Eval.importModule_found hmissing (himports.symm ▸ hask) hsettled s)
      rw [himports] at hrun
      refine ⟨_, hrun, h.resolves_of_asked s hentry hask ?_ ?_ ?_, h.putBack s rfl⟩
      · rintro w ⟨rfl⟩
        exact List.lookup_cons_self
      · intro e he
        cases he
      · intro other hother
        show ((name, v) :: d.imports.imported).lookup other = _
        rw [List.lookup_cons, beq_false_of_ne hother]

-- ====================================================== histories

/-- The desk after a deed of a session. -/
def perform (host : Host σ) (depth : Nat) (d : Desk σ) : Nat × Deed σ → Desk σ
  | (s, .resolve name) => ((d.resolve s name).map (·.desk)).getD d
  | (s, .act a) => (d.act host depth ⟨s, a⟩).desk

/-- The desk after deeds of sessions, in their order. -/
def after (host : Host σ) (depth : Nat) (d : Desk σ) (deeds : List (Nat × Deed σ)) : Desk σ :=
  deeds.foldl (perform host depth) d

/-- The resolvers that deeds add. -/
def addedBy (deeds : List (Nat × Deed σ)) : List (Resolver σ) :=
  deeds.filterMap (·.2.added?)

/-- A call keeps the table's resolvers and what was imported. -/
theorem Common.call (h : d.Common resolvers) (host : Host σ) (depth s : Nat)
    (patience : Option Nat) (c : Call) :
    (d.act host depth ⟨s, .call patience c⟩).desk.Common resolvers
      ∧ ∀ name v, d.imports.imported.lookup name = some v →
        (d.act host depth ⟨s, .call patience c⟩).desk.imports.imported.lookup name = some v := by
  have hend : (c.run (d.interpreter host depth patience s) (d.machine s)).Alike
      (Machine.Holding d.imports) (c.run (d.interpreter host depth patience s) (d.machine s)) :=
    run_related (Machine.Holding.simulation d.imports host ⟨s, (d.session s).root, patience⟩)
      (fun _ _ => .modify fun _ _ hm => { hm with }) c (d.machine s) (d.machine s)
      (h.table_eq s ▸ Machine.Holding.refl (d.machine s))
  generalize hrun : c.run (d.interpreter host depth patience s) (d.machine s) = x at hend
  cases hend with
  | @done answer m _ hm =>
    rw [act_done hrun, h.imports_putBack]
    exact ⟨h.putBack s hm.resolvers, hm.kept⟩
  | spent =>
    rw [act_spent hrun]
    exact ⟨h, fun _ _ hv => hv⟩

/-- One deed keeps what was imported, and adds at most a resolver at the
end. -/
theorem Common.perform (h : d.Common resolvers) (host : Host σ) (depth s : Nat) (deed : Deed σ) :
    (d.perform host depth (s, deed)).Common (resolvers ++ deed.added?.toList)
      ∧ ∀ name v, d.imports.imported.lookup name = some v →
        (d.perform host depth (s, deed)).imports.imported.lookup name = some v := by
  cases deed with
  | resolve asked =>
    obtain ⟨r, hr, hresolves, hcommon⟩ := h.resolve_cases s asked
    have hdesk : d.perform host depth (s, .resolve asked) = r.desk := by
      show ((d.resolve s asked).map (·.desk)).getD d = _
      rw [hr]
      rfl
    rw [hdesk]
    refine ⟨(List.append_nil resolvers).symm ▸ hcommon, fun name v hv => ?_⟩
    by_cases hname : name = asked
    · subst hname
      rw [(hresolves.cached v hv).2.2]
      exact hv
    · rw [hresolves.others name hname]
      exact hv
  | act a =>
    cases a with
    | call patience c =>
      obtain ⟨hcommon, hkept⟩ := h.call host depth s patience c
      exact ⟨(List.append_nil resolvers).symm ▸ hcommon, hkept⟩
    | fork => exact ⟨(List.append_nil resolvers).symm ▸ h.fork s, fun _ _ hv => hv⟩
    | addResolver r =>
      refine ⟨h.addResolver s r, fun name v hv => ?_⟩
      show (d.addResolver s r).imports.imported.lookup name = some v
      rw [h.imports_addResolver]
      exact hv

/-- Any number of deeds. -/
theorem Common.after (h : d.Common resolvers) (host : Host σ) (depth : Nat)
    (deeds : List (Nat × Deed σ)) :
    (d.after host depth deeds).Common (resolvers ++ addedBy deeds)
      ∧ ∀ name v, d.imports.imported.lookup name = some v →
        (d.after host depth deeds).imports.imported.lookup name = some v := by
  induction deeds generalizing d resolvers with
  | nil => exact ⟨(List.append_nil resolvers).symm ▸ h, fun _ _ hv => hv⟩
  | cons deed rest ih =>
    obtain ⟨hcommon, hkept⟩ := h.perform host depth deed.1 deed.2
    obtain ⟨hlater, hlast⟩ := ih hcommon
    refine ⟨?_, fun name v hv => hlast name v (hkept name v hv)⟩
    have hadded : addedBy (deed :: rest) = deed.2.added?.toList ++ addedBy rest := by
      unfold addedBy
      rw [List.filterMap_cons]
      cases deed.2.added? <;> rfl
    rw [hadded, ← List.append_assoc]
    exact hlater

/-- At any time, whatever sessions that share an import table did before,
a request for a module is answered from the table or by the resolvers in
the order they were added; once it is answered with a value, that value is
the answer to every later request for the module, by whichever session and
whatever happens in between, and no resolver is asked. After a failure the
module is still to be asked for, of a resolver that is added then too. -/
theorem import_once (host : Host σ) (depth : Nat) (state : σ) (root : Bindings)
    (resolvers : List (Resolver σ)) (deeds : List (Nat × Deed σ)) (s : Nat) (name : String) :
    let d := ((Desk.empty state).addSession root ⟨resolvers, []⟩).after host depth deeds
    d.imports.resolvers = (resolvers ++ addedBy deeds).map (Resolver.naming 0)
      ∧ (∀ t, d.table t = d.imports)
      ∧ ∃ r, d.resolve s name = some r
        ∧ d.Resolves name r
        ∧ (∀ v, r.answer = .ok v → ∀ later t, ∃ r',
            (r.desk.after host depth later).resolve t name = some r'
              ∧ r'.answer = .ok v
              ∧ Event.questions r'.events = []
              ∧ r'.desk = r.desk.after host depth later)
        ∧ ∀ e, r.answer = .error e → ∀ t added,
            (r.desk.addResolver t added).imports.imported.lookup name = none
              ∧ (r.desk.addResolver t added).imports.resolvers
                = (resolvers ++ addedBy deeds ++ [added]).map (Resolver.naming 0) := by
  intro d
  obtain ⟨hcommon, -⟩ := (Common.start state root resolvers).after host depth deeds
  have hcommon : d.Common (resolvers ++ addedBy deeds) := hcommon
  obtain ⟨r, hr, hresolves, hdesk⟩ := hcommon.resolve_cases s name
  refine ⟨hcommon.resolvers, hcommon.table_eq, r, hr, hresolves, ?_, ?_⟩
  · intro v hv later t
    obtain ⟨hlater, hkept⟩ := hdesk.after host depth later
    obtain ⟨r', hr', hresolves', -⟩ := hlater.resolve_cases t name
    exact ⟨r', hr', hresolves'.cached v (hkept name v (hresolves.remembered v hv))⟩
  · intro e he t added
    obtain ⟨hmissing, htable⟩ := hresolves.failed e he
    refine ⟨?_, (hdesk.addResolver t added).resolvers⟩
    rw [hdesk.imports_addResolver, htable]
    exact hmissing

/-- A module is asked for before anybody knows it; then there is a fork,
and the fork adds a resolver that counts how often it is asked. -/
def errands : List (Nat × Deed Platform) :=
  [(0, .resolve "tally"), (0, .act .fork),
    (1, .act (.addResolver (Sample.countingResolver 0 "tally")))]

/-- The module that the first question to the counting resolver gets. -/
def firstTally : Value :=
  .library (.imported 0 "tally") "tally" [("answer", .int 42), ("calls", .int 1)]

/-- A failure first, and after the fork one answer for good. -/
theorem import_once_tally :
    let start := (Desk.empty { workshop with tallies := [0] }).addSession []
      ⟨[Platform.nativeResolver], []⟩
    let d := start.after Platform.host 5 errands
    (∃ r, start.resolve 0 "tally" = some r ∧ r.answer = .error (.fault (.noModule "tally")))
      ∧ ∃ r, d.resolve 0 "tally" = some r
        ∧ r.answer = .ok firstTally
        ∧ Event.questions r.events = [(0, "tally"), (1, "tally")]
        ∧ ∀ later t, ∃ r',
            (r.desk.after Platform.host 5 later).resolve t "tally" = some r'
              ∧ r'.answer = .ok firstTally
              ∧ Event.questions r'.events = []
              ∧ r'.desk = r.desk.after Platform.host 5 later := by
  intro start d
  obtain ⟨-, -, r, hr, -, hlasting, -⟩ :=
    import_once Platform.host 5 { workshop with tallies := [0] } [] [Platform.nativeResolver]
      errands 0 "tally"
  have hcalls : Value.ofInt 1 = .int 1 := if_pos (by decide)
  have hanswer : (d.resolve 0 "tally").map (·.answer) = some (.ok firstTally) := by
    rw [firstTally, ← hcalls]
    rfl
  have hquestions : (d.resolve 0 "tally").map (fun r => Event.questions r.events)
      = some [(0, "tally"), (1, "tally")] := rfl
  have hr : d.resolve 0 "tally" = some r := hr
  rw [hr] at hanswer hquestions
  refine ⟨⟨_, rfl, rfl⟩, r, hr, Option.some.inj hanswer, Option.some.inj hquestions, ?_⟩
  exact hlasting firstTally (Option.some.inj hanswer)

end Desk

end LispShell
