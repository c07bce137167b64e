/-
Imports whose answers last.

If every resolver gives the same answer to a name whenever it is asked,
then it makes no difference whether a module is found in the import table
or has to be asked for: an import ends with what the resolvers answer
(`importModule_sound`). The invariant behind it is that every entry of
the table is what the resolvers would answer now (`Imports.Sound`). It is
kept by an import, and by a resolver that is added last, since that one is
asked only where the others know nothing.

A resolver may look at the state of the host and may change it. `ok` says
which states of the host there are; the answer is to be the same in all of
them.
-/
import LispShell.Proofs.Desk
import LispShell.Proofs.Orderly

namespace LispShell

variable {σ : Type} {ok : σ → Prop}

/-- A resolver whose answer to a name is always the same. -/
structure Resolver.Steady (ok : σ → Prop) (r : Resolver σ) : Prop where
  answer : ∀ name {state state'}, ok state → ok state' →
    (r name state').answer = (r name state).answer
  keeps : ∀ name {state}, ok state → ok (r name state).state

-- ====================================================== identities

/-- A value that has its identity, if it needs one. -/
def Value.Settled (v : Value) : Prop :=
  ∀ mark, v.identify mark = v

/-- A value that was given an identity has one. -/
theorem Value.settled_identify {mark : Mark} (hmark : mark ≠ .blank) (v : Value) :
    (v.identify mark).Settled := by
  intro other
  cases mark with
  | blank => exact absurd rfl hmark
  | _ =>
    cases v with
    | wide own n => cases own <;> rfl
    | sequence own items => cases own <;> rfl
    | library own name members => cases own <;> rfl
    | object d =>
      cases d with
      | bytes own row => cases own <;> rfl
      | _ => rfl
    | _ => rfl

/-- A value that has its identity is not new. -/
theorem Value.Settled.isNew_eq_false {v : Value} (h : v.Settled) : v.isNew = false := by
  have hsame := h (.host 0)
  unfold isNew
  split
  · cases hsame
  · cases hsame
  · cases hsame
  · cases hsame
  · rfl

/-- Settling a value that has its identity does nothing. -/
theorem Eval.settle_of_settled {v : Value} (h : v.Settled) (session : Nat) :
    (Eval.settle session v : Eval σ Value) = Eval.pure v := by
  rw [Eval.settle, h.isNew_eq_false]
  rfl

/-- What a named resolver finds has its place in the table as identity. -/
theorem Resolver.naming_settled (table : Nat) (r : Resolver σ) (name : String) (state : σ)
    (v : Value) (h : (r.naming table name state).answer = .ok v) : v.Settled := by
  unfold Resolver.naming at h
  dsimp only at h
  cases hanswer : (r name state).answer with
  | error e =>
    rw [hanswer] at h
    cases h
  | ok w =>
    rw [hanswer] at h
    cases h
    exact Value.settled_identify Mark.noConfusion w

/-- Naming leaves the answers of a resolver as steady as they were. -/
theorem Resolver.Steady.naming {r : Resolver σ} (h : r.Steady ok) (table : Nat) :
    (r.naming table).Steady ok where
  answer name state state' hstate hstate' := by
    unfold Resolver.naming
    dsimp only
    rw [h.answer name hstate hstate']
  keeps name state hstate := h.keeps name hstate

-- ====================================================== asking

namespace Imports

/-- Steady resolvers, asked in turn, answer the same in every state of the
host. -/
theorem ask_steady {resolvers : List (Resolver σ)} (h : ∀ r ∈ resolvers, r.Steady ok)
    (name : String) {state state' : σ} (hstate : ok state) (hstate' : ok state')
    (index index' : Nat) :
    (ask name state' index' resolvers).answer = (ask name state index resolvers).answer
      ∧ ok (ask name state index resolvers).state := by
  induction resolvers generalizing state state' index index' with
  | nil => exact ⟨rfl, hstate⟩
  | cons r rest ih =>
    obtain ⟨hr, hrest⟩ := List.forall_mem_cons.1 h
    have hkeeps := hr.keeps name hstate
    unfold ask
    dsimp only
    rw [hr.answer name hstate hstate']
    split
    · exact ⟨rfl, hkeeps⟩
    · split
      · exact ih hrest hkeeps (hr.keeps name hstate') (index + 1) (index' + 1)
      · exact ⟨rfl, hkeeps⟩

/-- What is found was found by a resolver, in a state that the ones before it
left. -/
theorem ask_found {P : Value → Prop} {resolvers : List (Resolver σ)}
    (h : ∀ r ∈ resolvers, ∀ name state, ok state →
      ok (r name state).state ∧ ∀ v, (r name state).answer = .ok v → P v)
    (name : String) (index : Nat) {state : σ} (hstate : ok state) :
    ok (ask name state index resolvers).state
      ∧ ∀ v, (ask name state index resolvers).answer = .ok v → P v := by
  induction resolvers generalizing state index with
  | nil => exact ⟨hstate, fun _ hv => nomatch hv⟩
  | cons r rest ih =>
    obtain ⟨hr, hrest⟩ := List.forall_mem_cons.1 h
    obtain ⟨hkept, hanswer⟩ := hr name state hstate
    unfold ask
    dsimp only
    split
    · next v hv =>
      refine ⟨hkept, fun w hw => ?_⟩
      cases hw
      exact hanswer v hv
    · split
      · exact ih hrest (index + 1) hkept
      · exact ⟨hkept, fun _ hv => nomatch hv⟩

/-- What is found has its identity if every resolver gives it one. -/
theorem ask_settled {resolvers : List (Resolver σ)}
    (h : ∀ r ∈ resolvers, ∀ name state v, (r name state).answer = .ok v → v.Settled)
    {name : String} {state : σ} {index : Nat} {v : Value}
    (hanswer : (ask name state index resolvers).answer = .ok v) : v.Settled := by
  have hfound : ∀ r ∈ resolvers, ∀ name state, True →
      True ∧ ∀ v, (r name state).answer = .ok v → v.Settled :=
    fun r hr name state _ => ⟨trivial, h r hr name state⟩
  exact (ask_found hfound name index trivial).2 v hanswer

/-- Resolvers that are added are asked only where the others know
nothing. -/
theorem ask_append {resolvers : List (Resolver σ)} (more : List (Resolver σ)) {name : String}
    {state : σ} {index : Nat} {v : Value}
    (h : (ask name state index resolvers).answer = .ok v) :
    (ask name state index (resolvers ++ more)).answer = .ok v := by
  induction resolvers generalizing state index with
  | nil => cases h
  | cons r rest ih =>
    rw [List.cons_append]
    unfold ask at h ⊢
    dsimp only at h ⊢
    cases hanswer : (r name state).answer with
    | ok w =>
      rw [hanswer] at h
      exact h
    | error e =>
      rw [hanswer] at h
      dsimp only at h ⊢
      by_cases hmissing : e.has .missingModule = true
      · rw [if_pos hmissing] at h ⊢
        exact ih h
      · rw [if_neg hmissing] at h
        cases h

theorem ask_shown (name : String) (resolvers : List (Resolver σ)) (state : σ) (index : Nat) :
    (ask name state index resolvers).events.filter Event.isShown = [] := by
  refine List.filter_eq_nil_iff.2 (ask_events name ?_ ?_ resolvers state index)
  · exact fun _ => Bool.false_ne_true
  · exact fun _ => Bool.false_ne_true

-- ====================================================== tables

/-- An import table whose entries are what its resolvers answer, and keep
answering. -/
structure Sound (ok : σ → Prop) (i : Imports σ) : Prop where
  steady : ∀ r ∈ i.resolvers, r.Steady ok
  settled : ∀ r ∈ i.resolvers, ∀ name state v, (r name state).answer = .ok v → v.Settled
  cached : ∀ name v, i.imported.lookup name = some v →
    ∀ state, ok state → (ask name state 0 i.resolvers).answer = .ok v

/-- Remembering what the resolvers answer keeps the table sound. -/
theorem Sound.remember {i : Imports σ} (h : i.Sound ok) {name : String} {v : Value} {state : σ}
    (hstate : ok state) (hanswer : (ask name state 0 i.resolvers).answer = .ok v) :
    (i.remember name v).Sound ok where
  steady := h.steady
  settled := h.settled
  cached key w hkey state' hstate' := by
    show (ask key state' 0 i.resolvers).answer = .ok w
    have hentry : ((name, v) :: i.imported).lookup key = some w := hkey
    rw [List.lookup_cons] at hentry
    by_cases heq : key = name
    · subst heq
      rw [beq_self_eq_true] at hentry
      cases hentry
      rw [(ask_steady h.steady key hstate hstate' 0 0).1, hanswer]
    · rw [beq_false_of_ne heq] at hentry
      exact h.cached key w hentry state' hstate'

/-- A further resolver keeps the table sound: it is asked last. -/
theorem Sound.addResolver {i : Imports σ} (h : i.Sound ok) {r : Resolver σ} (hr : r.Steady ok)
    (table : Nat) : (i.addResolver (r.naming table)).Sound ok where
  steady r' hr' := by
    rcases List.mem_append.1 hr' with hr' | hr'
    · exact h.steady r' hr'
    · rw [List.mem_singleton.1 hr']
      exact hr.naming table
  settled r' hr' := by
    rcases List.mem_append.1 hr' with hr' | hr'
    · exact h.settled r' hr'
    · rw [List.mem_singleton.1 hr']
      exact Resolver.naming_settled table r
  cached name v hentry state hstate := ask_append _ (h.cached name v hentry state hstate)

/-- A table in which nothing was imported. -/
theorem sound_asTable {resolvers : List (Resolver σ)} (h : ∀ r ∈ resolvers, r.Steady ok)
    (table : Nat) : (Imports.asTable ⟨resolvers, []⟩ table).Sound ok where
  steady named hnamed := by
    obtain ⟨r, hr, rfl⟩ := List.mem_map.1 hnamed
    exact (h r hr).naming table
  settled named hnamed := by
    obtain ⟨r, -, rfl⟩ := List.mem_map.1 hnamed
    exact Resolver.naming_settled table r
  cached name v hentry := nomatch hentry

end Imports

-- ====================================================== importing

namespace Eval

variable {m : Machine σ} {name : String}

/-- A module in the table is not asked for. -/
theorem importModule_cached {v : Value} (h : m.imports.imported.lookup name = some v)
    (session : Nat) : importModule session name m = .done (.ok v) m := by
  unfold importModule
  simp only [bind, Eval.bind, get, h]
  rfl

/-- A failure is not remembered. -/
theorem importModule_failed {e : Failure} (h : m.imports.imported.lookup name = none)
    (hask : (Imports.ask name m.host 0 m.imports.resolvers).answer = .error e) (session : Nat) :
    importModule session name m
      = .done (.error e) { m with
          host := (Imports.ask name m.host 0 m.imports.resolvers).state
          journal := (Imports.ask name m.host 0 m.imports.resolvers).events ++ m.journal } := by
  unfold importModule
  simp only [bind, Eval.bind, get, h, modify, hask]
  rfl

/-- What is found is remembered under its name. -/
theorem importModule_found {v : Value} (h : m.imports.imported.lookup name = none)
    (hask : (Imports.ask name m.host 0 m.imports.resolvers).answer = .ok v) (hv : v.Settled)
    (session : Nat) :
    importModule session name m
      = .done (.ok v) { m with
          imports := m.imports.remember name v
          host := (Imports.ask name m.host 0 m.imports.resolvers).state
          journal := (Imports.ask name m.host 0 m.imports.resolvers).events ++ m.journal } := by
  unfold importModule
  simp only [bind, Eval.bind, get, h, modify, hask, settle_of_settled hv]
  rfl

/-- An import ends with what the resolvers answer, whether or not it is in
the table. -/
theorem importModule_sound (h : m.imports.Sound ok) (hok : ok m.host) (session : Nat)
    (name : String) :
    ∃ state events imported,
      importModule session name m
        = .done (Imports.ask name m.host 0 m.imports.resolvers).answer
            { m with
              host := state
              journal := events ++ m.journal
              imports := ⟨m.imports.resolvers, imported⟩ }
      ∧ ok state ∧ events.filter Event.isShown = []
      ∧ Imports.Sound ok ⟨m.imports.resolvers, imported⟩ := by
  have hstate := (Imports.ask_steady h.steady name hok hok 0 0).2
  have hshown := Imports.ask_shown name m.imports.resolvers m.host 0
  cases hentry : m.imports.imported.lookup name with
  | some v =>
    refine ⟨m.host, [], m.imports.imported, ?_, hok, rfl, h⟩
    rw [h.cached name v hentry m.host hok, importModule_cached hentry]
    rfl
  | none =>
    cases hask : (Imports.ask name m.host 0 m.imports.resolvers).answer with
    | error e =>
      exact ⟨_, _, m.imports.imported, importModule_failed hentry hask session, hstate, hshown, h⟩
    | ok v =>
      have hv := Imports.ask_settled h.settled hask
      exact ⟨_, _, _, importModule_found hentry hask hv session, hstate, hshown,
        h.remember hok hask⟩

end Eval

end LispShell
