/-
What holds of everything that a run deals with.

`Terms` are conditions on the values, the code, the failures and the
machines of a run. If the primitives of the evaluator keep to them
(`Terms.Upheld`), so does every run, however deep: each value it gives,
each failure, and the machine it leaves (`Upheld.eval`,
`Upheld.runForms`). What is to be shown about the primitives is said once,
and the terms may be different from use to use.

The judgement is `Keeps T pre x post`: the computation `x`, run on a
machine that keeps the terms while `pre` holds, ends in such a machine,
with a value for which `post` holds or with a failure on the terms.

# Events that end the promise

Some terms hold only as long as something does not happen. `Terms.event`
says which events are allowed, and nothing is promised about a run in
which another one occurs. For this to compose, a computation has to leave
the journal before it as it is, whether or not `pre` holds; so that is
part of the judgement, and `pre` is a part of it and not an assumption.
What is added to the journal is never text of the shell.
-/
import LispShell.Proofs.Cells
import LispShell.Proofs.Made
import LispShell.Proofs.Printing
import LispShell.Proofs.Program

namespace LispShell

variable {σ α β : Type}

/-- Conditions on what a run deals with. -/
structure Terms (σ : Type) where
  machine : Machine σ → Prop
  value : Value → Prop
  code : Code → Prop
  failure : Failure → Prop
  event : Event → Prop

/-- An answer on the terms. -/
def Terms.answer (T : Terms σ) (post : α → Prop) : Except Failure α → Prop
  | .ok a => post a
  | .error e => T.failure e

/-- Whether an event is text of the shell. -/
def Event.isWritten : Event → Bool
  | .wrote _ => true
  | _ => false

/-- What an event stored in place. -/
def Event.cells : Event → Cells
  | .stored cells => cells
  | _ => []

/-- The second machine has further events in its journal, none of which is
text of the shell, and has stored what these say. -/
structure Machine.Adds (m m' : Machine σ) (new : List Event) : Prop where
  journal : m'.journal = new ++ m.journal
  unwritten : ∀ e ∈ new, e.isWritten = false
  cells : m'.cells = new.flatMap Event.cells ++ m.cells

theorem Machine.Adds.nil {m m' : Machine σ} (h : m'.journal = m.journal)
    (hcells : m'.cells = m.cells) : m.Adds m' [] :=
  ⟨h, List.forall_mem_nil _, hcells⟩

theorem Machine.Adds.one {m m' : Machine σ} {e : Event} (h : m'.journal = e :: m.journal)
    (he : e.isWritten = false) (hcells : m'.cells = e.cells ++ m.cells) : m.Adds m' [e] :=
  ⟨h, List.forall_mem_singleton.2 he, by rw [hcells, List.flatMap_singleton]⟩

/-- What happened first and what happened then. -/
theorem Machine.Adds.trans {m₁ m₂ m₃ : Machine σ} {new new' : List Event} (h : m₁.Adds m₂ new)
    (h' : m₂.Adds m₃ new') : m₁.Adds m₃ (new' ++ new) where
  journal := by rw [h'.journal, h.journal, List.append_assoc]
  unwritten := List.forall_mem_append.2 ⟨h'.unwritten, h.unwritten⟩
  cells := by rw [h'.cells, h.cells, List.flatMap_append, List.append_assoc]

/-- Where nothing was stored, the cells are as they were. -/
theorem Machine.Adds.cells_eq {m m' : Machine σ} {new : List Event} (h : m.Adds m' new)
    (hnew : ∀ e ∈ new, e.cells = []) : m'.cells = m.cells := by
  rw [h.cells, List.flatMap_eq_nil_iff.2 hnew, List.nil_append]

/-- A computation that keeps to the terms. -/
def Eval.Keeps (T : Terms σ) (pre : Prop) (x : Eval σ α) (post : α → Prop) : Prop :=
  ∀ m answer m', x m = .done answer m' → ∃ new, m.Adds m' new
    ∧ (pre → T.machine m → (∀ e ∈ new, T.event e) → T.machine m' ∧ T.answer post answer)

namespace Eval.Keeps

variable {T : Terms σ} {pre pre' : Prop} {post post' : α → Prop} {x : Eval σ α}

/-- Less may be asked for, and more assumed. -/
theorem imp (h : Keeps T pre x post) (hpre : pre' → pre) (hpost : ∀ a, post a → post' a) :
    Keeps T pre' x post' := by
  intro m answer m' hrun
  obtain ⟨new, hadds, hkeeps⟩ := h m answer m' hrun
  refine ⟨new, hadds, fun hpre' hm hnew => ?_⟩
  obtain ⟨hm', hanswer⟩ := hkeeps (hpre hpre') hm hnew
  refine ⟨hm', ?_⟩
  cases answer with
  | ok a => exact hpost a hanswer
  | error e => exact hanswer

theorem of_pre (h : Keeps T pre x post) (hpre : pre' → pre) : Keeps T pre' x post :=
  h.imp hpre fun _ ha => ha

-- ====================================================== the building blocks

/-- Ending with an answer on the terms. -/
theorem ofExcept (answer : Except Failure α) :
    Keeps T (T.answer post answer) (Eval.ofExcept answer) post := by
  intro m result m' hrun
  have hsame : Eval.ofExcept answer m = .done answer m := by
    cases answer <;> rfl
  rw [hsame] at hrun
  cases hrun
  exact ⟨[], .nil rfl rfl, fun hanswer hm _ => ⟨hm, hanswer⟩⟩

theorem pure (a : α) : Keeps T (post a) (Eval.pure a) post :=
  ofExcept (.ok a)

/-- Ending with a failure. -/
theorem fail (e : Failure) : Keeps T (T.failure e) (Eval.fail e) post :=
  ofExcept (.error e)

theorem spent : Keeps T pre (Eval.spent : Eval σ α) post := by
  intro m answer m' hrun
  cases hrun

theorem ofResult (hfault : ∀ f, T.failure (.fault f)) (r : Except Fault α) :
    Keeps T (∀ a, r = .ok a → post a) (Eval.ofResult r) post := by
  cases r with
  | ok a => exact (pure a).of_pre fun h => h a rfl
  | error f => exact (fail (.fault f)).of_pre fun _ => hfault f

/-- A change of the machine that writes the given events. -/
theorem modify {f : Machine σ → Machine σ} (events : Machine σ → List Event)
    (hadds : ∀ m, Machine.Adds m (f m) (events m))
    (hmachine : pre → ∀ m, T.machine m → T.machine (f m)) :
    Keeps T pre (Eval.modify f) fun _ => True := by
  intro m answer m' hrun
  cases hrun
  exact ⟨events m, hadds m, fun hpre hm _ => ⟨hmachine hpre m hm, trivial⟩⟩

/-- One computation after another. -/
theorem bind {mid : α → Prop} {post : β → Prop} {f : α → Eval σ β} (hx : Keeps T pre x mid)
    (hf : ∀ a, Keeps T (pre ∧ mid a) (f a) post) : Keeps T pre (Eval.bind x f) post := by
  intro m answer m' hrun
  unfold Eval.bind at hrun
  generalize hfirst : x m = first at hrun
  cases first with
  | spent => cases hrun
  | done answer₁ m₁ =>
    obtain ⟨new, hadds, hkeeps⟩ := hx m answer₁ m₁ hfirst
    cases answer₁ with
    | error e =>
      cases hrun
      exact ⟨new, hadds, hkeeps⟩
    | ok a =>
      obtain ⟨new', hadds', hkeeps'⟩ := hf a m₁ answer m' hrun
      refine ⟨new' ++ new, hadds.trans hadds', fun hpre hm hnew => ?_⟩
      obtain ⟨hlater, hfirst⟩ := List.forall_mem_append.1 hnew
      obtain ⟨hm₁, ha⟩ := hkeeps hpre hm hfirst
      exact hkeeps' ⟨hpre, ha⟩ hm₁ hlater

theorem bind_get {f : Machine σ → Eval σ α}
    (hf : ∀ m, Keeps T (pre ∧ T.machine m) (f m) post) : Keeps T pre (Eval.bind get f) post := by
  intro m answer m' hrun
  obtain ⟨new, hadds, hkeeps⟩ := hf m m answer m' hrun
  exact ⟨new, hadds, fun hpre hm => hkeeps ⟨hpre, hm⟩ hm⟩

/-- A failure that is looked at is on the terms. -/
theorem attempt (h : Keeps T pre x post) :
    Keeps T pre (Eval.attempt x) fun answer => T.answer post answer := by
  intro m answer m' hrun
  unfold Eval.attempt at hrun
  generalize hfirst : x m = first at hrun
  cases first with
  | spent => cases hrun
  | done answer₁ m₁ =>
    cases hrun
    exact h m answer₁ m' hfirst

/-- Changing a failure. -/
theorem mapFailure {f : Failure → Failure} (hf : ∀ e, T.failure e → T.failure (f e))
    (h : Keeps T pre x post) : Keeps T pre (Eval.mapFailure f x) post := by
  intro m answer m' hrun
  unfold Eval.mapFailure at hrun
  generalize hfirst : x m = first at hrun
  cases first with
  | spent => cases hrun
  | done answer₁ m₁ =>
    obtain ⟨new, hadds, hkeeps⟩ := h m answer₁ m₁ hfirst
    cases answer₁ with
    | ok a =>
      cases hrun
      exact ⟨new, hadds, hkeeps⟩
    | error e =>
      cases hrun
      refine ⟨new, hadds, fun hpre hm hnew => ?_⟩
      obtain ⟨hm', he⟩ := hkeeps hpre hm hnew
      exact ⟨hm', hf e he⟩

/-- Values one after the other. -/
theorem collect {good : α → Prop} {result : β → Prop} {f : α → Eval σ β}
    (hf : ∀ a, Keeps T (good a) (f a) result) (as : List α) :
    Keeps T (∀ a ∈ as, good a) (Eval.collect f as) fun bs => ∀ b ∈ bs, result b := by
  induction as with
  | nil => exact (pure []).of_pre fun _ => List.forall_mem_nil _
  | cons a rest ih =>
    have hfirst := (hf a).of_pre fun h : ∀ c ∈ a :: rest, good c => h a List.mem_cons_self
    refine hfirst.bind fun b => ?_
    refine (ih.of_pre fun h => fun c hc => h.1 c (List.mem_cons_of_mem a hc)).bind fun bs => ?_
    exact (pure (b :: bs)).of_pre fun h => List.forall_mem_cons.2 ⟨h.1.2, h.2⟩

/-- What is stored in place, if anything, is an allowed event. -/
theorem store (hstore : ∀ m stored, T.event (.stored stored) → T.machine m →
      T.machine { m with cells := stored ++ m.cells, journal := .stored stored :: m.journal })
    (stored : Cells) :
    Keeps T pre (Eval.store stored) fun _ => stored = [] ∨ T.event (.stored stored) := by
  unfold Eval.store
  split
  · exact (pure ()).of_pre fun _ => .inl rfl
  · intro m answer m' hrun
    cases hrun
    refine ⟨[.stored _], .one rfl rfl rfl, fun _ hm hnew => ?_⟩
    have hevent := hnew _ (List.mem_singleton_self _)
    exact ⟨hstore m _ hevent hm, .inr hevent⟩

/-- What is recorded is an allowed event. -/
theorem record (hcounts : ∀ m journal, T.machine m → T.machine { m with journal }) {e : Event}
    (he : e.isWritten = false) (hcells : e.cells = []) :
    Keeps T pre (Eval.record e) fun _ => T.event e := by
  intro m answer m' hrun
  cases hrun
  refine ⟨[e], .one rfl he (by rw [hcells]; rfl), fun _ hm hnew => ?_⟩
  exact ⟨hcounts m _ hm, hnew e (List.mem_singleton_self e)⟩

end Eval.Keeps

-- ====================================================== hosts

/-- A script that keeps to the terms if what it is told does. -/
inductive Script.Keeps (T : Terms σ) : Script σ → Prop where
  | finish {answer : Except Failure Value} (h : T.answer T.value answer) : Keeps T (.finish answer)
  | eval {code : Code} {next : Except Failure Value → Script σ} (hcode : T.code code)
      (hnext : ∀ answer, T.answer T.value answer → Keeps T (next answer)) :
      Keeps T (.eval code next)
  | get {next : σ → Cells → Script σ}
      (hnext : ∀ m, T.machine m → Keeps T (next m.host m.cells)) : Keeps T (.get next)
  | set {state : σ} {stored : Cells} {next : Script σ}
      (hset : ∀ m, T.machine m → T.machine { m with host := state })
      (hnext : Keeps T next) : Keeps T (.set state stored next)
  | lookup {frame : FrameId} {name : String} {next : Option Value → Script σ}
      (hnext : ∀ found, (∀ v, found = some v → T.value v) → Keeps T (next found)) :
      Keeps T (.lookup frame name next)
  | bind {frame : FrameId} {name : String} {value : Value} {next : Script σ}
      (hvalue : T.value value) (hnext : Keeps T next) : Keeps T (.bind frame name value next)

/-- A call of a method that keeps to the terms, if what it stored does. -/
def Terms.called (T : Terms σ) (c : Called) : Prop :=
  c.stored = [] ∨ T.event (.stored c.stored) → T.answer T.value c.answer

/-- A host whose procedures, methods and modules keep to the terms. -/
structure Host.Keeps (T : Terms σ) (host : Host σ) : Prop where
  call : ∀ p args, (∀ v ∈ args, T.value v) → (host.call p args).Keeps T
  invoke : ∀ module name args, (∀ v ∈ args, T.value v) → (host.invoke module name args).Keeps T
  member : ∀ m module name, T.machine m → T.answer T.value (host.member module name m.host)
  method : ∀ d name args, T.value (.proc (.method (.object d) name)) →
    (∀ v ∈ args, T.value v) → T.called (Eval.callMethod name (host.method? d name) args)
  function : ∀ name key args, (∀ v ∈ args, T.value v) →
    T.called (Eval.callMethod name (host.function? key) args)

/-- Terms that hold of the data that the language makes by itself from
values on the terms. -/
structure Terms.Broad (T : Terms σ) : Prop where
  plain : ∀ v, v.Plain → T.value v
  number : ∀ n, T.value (.ofInt n)
  sequence : ∀ mark items, T.value (.sequence mark items) ↔ ∀ v ∈ items, T.value v
  set : ∀ stored mark n, T.event (.stored stored) → (mark, .whole n) ∈ stored →
    T.value (.wide mark n)
  fault : ∀ f, T.failure (.fault f)
  other : ∀ what, T.failure (.other what)
  within : ∀ label e, T.failure e → T.failure (.within label e)
  ofCall : ∀ e, T.failure e → T.failure e.ofCall

/-- Terms that hold of every procedure as well. -/
structure Terms.Ample (T : Terms σ) : Prop extends T.Broad where
  proc : ∀ p, (∀ v name, p ≠ .method v name) → T.value (.proc p)

/-- Terms that the primitives of the evaluator keep to. -/
structure Terms.Upheld (T : Terms σ) (host : Host σ) (site : Site) : Prop extends T.Ample where
  counts : ∀ m made queries journal, T.machine m → T.machine { m with made, queries, journal }
  lookup : ∀ m frame name v, T.machine m → m.frames.lookup frame name = some v → T.value v
  define : ∀ m frame name v, T.machine m → T.value v →
    T.machine { m with frames := m.frames.bind frame name v }
  imported : ∀ m name v, T.machine m → m.imports.imported.lookup name = some v → T.value v
  asked : ∀ m name, T.machine m →
    T.answer T.value (Imports.ask name m.host 0 m.imports.resolvers).answer
      ∧ ∀ m', T.machine m' →
        T.machine { m' with host := (Imports.ask name m.host 0 m.imports.resolvers).state }
  remember : ∀ m name v, T.machine m → T.value v →
    T.machine { m with imports := m.imports.remember name v }
  store : ∀ m stored, T.event (.stored stored) → T.machine m →
    T.machine { m with cells := stored ++ m.cells }
  read : ∀ m v, T.machine m → T.value v → T.value (v.read m.cells)
  identify : ∀ v mark, T.value v → T.value (v.identify mark)
  code : ∀ c, T.value (.ofCode c) ↔ T.code c
  items : ∀ mark items, T.code (.list mark items) ↔ ∀ c ∈ items, T.code c
  literal : ∀ mark n, T.code (.wide mark n) → T.value (.wide .blank n)
  token : ∀ t session serial, T.code ((Expr.ofToken t).stamp session serial).1
  member : ∀ has v name w, T.value v → Value.member has v name = .ok w → T.value w
  canceled : site.patience ≠ none → T.failure .canceled
  host : host.Keeps T

-- ====================================================== what values are made

namespace Terms.Broad

variable {T : Terms σ}

/-- Texts are on the terms. -/
theorem texts (h : T.Broad) (items : List String) : T.value (.texts items) := by
  refine (h.sequence _ _).2 fun v hv => ?_
  obtain ⟨s, -, rfl⟩ := List.mem_map.1 hv
  exact h.plain _ (.text s)

/-- What standard procedures make is on the terms. -/
theorem made (h : T.Broad) {args : List Value} (hargs : ∀ v ∈ args, T.value v) {v : Value}
    (hv : Value.Made args v) : T.value v := by
  cases hv with
  | plain hplain => exact h.plain v hplain
  | number n => exact h.number n
  | texts items => exact h.texts items
  | row hitems =>
    refine (h.sequence _ _).2 fun w hw => ?_
    obtain ⟨mark, whole, hwhole, hw⟩ := hitems w hw
    exact (h.sequence mark whole).1 (hargs _ hwhole) w hw

/-- Methods of values keep to the terms, as what they give was stored. -/
theorem method (h : T.Broad) (v : Value) (name : String) (args : List Value) :
    T.called (Eval.callMethod name (v.method? name) args) := by
  intro hstored
  cases hm : v.method? name with
  | none => exact h.other _
  | some m =>
    rw [hm] at hstored
    have hcalled : (m.call name args).Accounted :=
      Method.accounted_call (Value.method?_accounted hm) name args
    have hallowed : (m.call name args).stored = [] ∨ T.event (.stored (m.call name args).stored) :=
      hstored
    show T.answer T.value (m.call name args).answer
    generalize m.call name args = c at hcalled hallowed ⊢
    cases hcalled with
    | fault f stored => exact h.fault f
    | other what stored => exact h.other what
    | @value results stored hresults =>
      -- a result is plain, or it is the content of a cell that the call stored
      have hvalue : ∀ d ∈ results, T.value d.received := by
        intro d hd
        cases hresults d hd with
        | plain hplain => exact h.plain _ hplain
        | set hset =>
          rcases hallowed with hnil | hevent
          · rw [show stored = [] from hnil] at hset
            cases hset
          · exact h.set _ _ _ hevent hset
      show T.value (Signature.collect results)
      unfold Signature.collect
      split
      · exact h.plain _ .nil
      · exact hvalue _ List.mem_cons_self
      · refine (h.sequence _ _).2 fun v hv => ?_
        obtain ⟨d, hd, rfl⟩ := List.mem_map.1 hv
        exact hvalue d hd

end Terms.Broad

/-- What the standard procedures do: four need the running program, all
others make something of their arguments. -/
theorem Eval.applyStandard_cases (host : Host σ) (site : Site) (args : List Value) (p : Standard) :
    (∃ r : Result, Gives (Value.Made args) r
      ∧ ∀ inner, Eval.applyStandard host site inner args p = Eval.ofResult r)
    ∨ p = .print ∨ p = .list ∨ p = .cond ∨ p = .dir := by
  open Standard in
  cases p with
  | add => exact .inl ⟨_, addition_made args, fun _ => rfl⟩
  | sub => exact .inl ⟨_, arithmetic_made "sub" Number.sub args, fun _ => rfl⟩
  | mul => exact .inl ⟨_, arithmetic_made "mul" Number.mul args, fun _ => rfl⟩
  | div => exact .inl ⟨_, division_made args, fun _ => rfl⟩
  | mod => exact .inl ⟨_, modulo_made args, fun _ => rfl⟩
  | pow => exact .inl ⟨_, power_made args, fun _ => rfl⟩
  | eq => exact .inl ⟨_, .bind fun _ => .ok (.plain (.bool _)), fun _ => rfl⟩
  | order o => exact .inl ⟨_, comparison_made o args, fun _ => rfl⟩
  | not => exact .inl ⟨_, .bind fun _ => .ok (.plain (.bool _)), fun _ => rfl⟩
  | print => exact .inr (.inl rfl)
  | list => exact .inr (.inr (.inl rfl))
  | len => exact .inl ⟨_, length_made args, fun _ => rfl⟩
  | cond => exact .inr (.inr (.inr (.inl rfl)))
  | dir => exact .inr (.inr (.inr (.inr rfl)))
  | unary f => exact .inl ⟨_, unaryFunction_made f args, fun _ => rfl⟩
  | binary f => exact .inl ⟨_, binaryFunction_made f args, fun _ => rfl⟩
  | whole f => exact .inl ⟨_, wholeFunction_made f args, fun _ => rfl⟩
  | test f => exact .inl ⟨_, .bind fun _ => .bind fun _ => .ok (.plain (.bool _)), fun _ => rfl⟩
  | log => exact .inl ⟨_, logarithm_made args, fun _ => rfl⟩
  | factorial => exact .inl ⟨_, factorialOf_made args, fun _ => rfl⟩
  | gcd => exact .inl ⟨_, commonDivisor_made args, fun _ => rfl⟩

-- ====================================================== the evaluator

namespace Terms.Upheld

open Eval

variable {T : Terms σ} {host : Host σ} {site : Site} {inner : Inner σ} {pre : Prop}

/-- A standard procedure that evaluates nothing. -/
theorem standard (h : T.Upheld host site) {args : List Value} {r : Result}
    (hr : Gives (Value.Made args) r) :
    Keeps T (∀ v ∈ args, T.value v) (ofResult r) T.value :=
  (Keeps.ofResult h.fault r).of_pre fun hargs v hv => h.toAmple.made hargs (hr v hv)

theorem checked (h : T.Upheld host site) (r : Except Fault α) :
    Keeps T pre (ofResult r) fun _ => True :=
  (Keeps.ofResult h.fault r).of_pre fun _ _ _ => trivial

/-- The journal does not matter to the machine. -/
theorem journal (h : T.Upheld host site) (m : Machine σ) (journal : List Event)
    (hm : T.machine m) : T.machine { m with journal } :=
  h.counts m m.made m.queries journal hm

/-- Binding a value on the terms. -/
theorem defines (h : T.Upheld host site) (frame : FrameId) (name : String) (v : Value) :
    Keeps T (T.value v) (Eval.define frame name v) fun _ => True :=
  .modify (fun _ => [.bound frame name v]) (fun _ => .one rfl rfl rfl) fun hv m hm =>
    h.journal _ _ (h.define m frame name v hm hv)

/-- Asking whether to go on. -/
theorem checkpoint (h : T.Upheld host site) :
    Keeps T pre (checkpoint site.patience) fun _ => True := by
  intro m answer m' hrun
  have hasked := fun hm : T.machine m =>
    h.counts m m.made (m.queries + 1)
      (.queried m.frames m.imports.imported m.cells :: m.journal) hm
  cases hpatience : site.patience with
  | none =>
    rw [hpatience] at hrun
    cases hrun
    exact ⟨[_], .one rfl rfl rfl, fun _ hm _ => ⟨hasked hm, trivial⟩⟩
  | some n =>
    have hcanceled : T.failure .canceled := by
      refine h.canceled ?_
      rw [hpatience]
      exact Option.some_ne_none n
    rw [hpatience] at hrun
    by_cases hlt : m.queries < n
    · rw [checkpoint_of_lt hlt] at hrun
      cases hrun
      exact ⟨[_], .one rfl rfl rfl, fun _ hm _ => ⟨hasked hm, trivial⟩⟩
    · rw [checkpoint_of_le (Nat.not_lt.1 hlt)] at hrun
      cases hrun
      exact ⟨[_], .one rfl rfl rfl, fun _ hm _ => ⟨hasked hm, hcanceled⟩⟩

theorem newMark (h : T.Upheld host site) (session : Nat) :
    Keeps T pre (newMark session) fun _ => True := by
  intro m answer m' hrun
  cases hrun
  exact ⟨[], .nil rfl rfl, fun _ hm _ => ⟨h.counts m (m.made + 1) m.queries m.journal hm, trivial⟩⟩

/-- A new value gets an identity. -/
theorem settle (h : T.Upheld host site) (session : Nat) (v : Value) :
    Keeps T (T.value v) (settle session v) T.value := by
  unfold Eval.settle
  split
  · refine (h.newMark session).bind fun mark => ?_
    exact (Keeps.pure _).of_pre fun hv => h.identify v mark hv.1
  · exact .pure v

/-- Storing something in place, if that is allowed. -/
theorem stores (h : T.Upheld host site) (stored : Cells) :
    Keeps T pre (Eval.store stored) fun _ => stored = [] ∨ T.event (.stored stored) :=
  .store (fun m stored hevent hm => h.journal _ _ (h.store m stored hevent hm)) stored

theorem conclude (h : T.Upheld host site) (c : Called) :
    Keeps T (T.called c) (Eval.conclude c) T.value :=
  (h.stores c.stored).bind fun _ => (Keeps.ofExcept c.answer).of_pre fun hs => hs.1 hs.2

/-- Code on the terms reads as code on the terms. -/
theorem readCode (h : T.Upheld host site) (m : Machine σ) (code : Code) (hm : T.machine m)
    (hcode : T.code code) : T.code (code.read m.cells) := by
  have hread := h.read m _ hm ((h.code code).2 hcode)
  rw [Value.read_ofCode] at hread
  exact (h.code _).1 hread

theorem complain (h : T.Upheld host site) {post : α → Prop} (f : String → Fault) (code : Code) :
    Keeps T pre (Eval.complain f code) post := by
  unfold Eval.complain
  exact .bind_get fun _ => (Keeps.fail _).of_pre fun _ => h.fault _

-- ====================================================== procedures

/-- A host procedure keeps to the terms if its script does. -/
theorem runScript (h : T.Upheld host site)
    (hinner : ∀ code, Keeps T (T.code code) (inner code) T.value) (script : Script σ) :
    Keeps T (script.Keeps T) (runScript inner script) T.value := by
  -- what the script may rely on is in `Script.Keeps`, one layer for every step of it
  induction script with
  | finish answer =>
    refine (Keeps.ofExcept answer).of_pre fun hs => ?_
    cases hs with
    | finish hanswer => exact hanswer
  | eval code next ih =>
    have hcode := (hinner code).of_pre fun hs : (Script.eval code next).Keeps T => by
      cases hs with
      | eval hcode _ => exact hcode
    refine hcode.attempt.bind fun answer => (ih answer).of_pre fun hs => ?_
    cases hs.1 with
    | eval _ hnext => exact hnext answer hs.2
  | get next ih =>
    show Keeps T _ (Eval.bind get fun m => Eval.runScript inner (next m.host m.cells)) _
    refine .bind_get fun m => (ih m.host m.cells).of_pre fun hs => ?_
    cases hs.1 with
    | get hnext => exact hnext m hs.2
  | set state stored next ih =>
    have hset : Keeps T ((Script.set state stored next).Keeps T)
        (Eval.modify fun m => { m with host := state }) fun _ => True := by
      refine .modify (fun _ => []) (fun _ => .nil rfl rfl) fun hs m hm => ?_
      cases hs with
      | set hset _ => exact hset m hm
    refine hset.bind fun _ => (h.stores stored).bind fun _ => ih.of_pre fun hs => ?_
    cases hs.1.1 with
    | set _ hnext => exact hnext
  | lookup frame name next ih =>
    show Keeps T _
      (Eval.bind get fun m => Eval.runScript inner (next (m.frames.lookup frame name))) _
    refine .bind_get fun m => (ih (m.frames.lookup frame name)).of_pre fun hs => ?_
    cases hs.1 with
    | lookup hnext => exact hnext _ fun v hv => h.lookup m frame name v hs.2 hv
  | bind frame name value next ih =>
    have hdefine := (h.defines frame name value).of_pre
      fun hs : (Script.bind frame name value next).Keeps T => by
        cases hs with
        | bind hvalue _ => exact hvalue
    refine hdefine.bind fun _ => ih.of_pre fun hs => ?_
    cases hs.1 with
    | bind _ hnext => exact hnext

/-- What counts as code counts as a value, and the other way round. -/
theorem code_of_toCode? (h : T.Upheld host site) {v : Value} {code : Code} (hv : T.value v)
    (hcode : v.toCode? = some code) : T.code code := by
  have hsame : v = .ofCode code := by
    cases v <;> cases hcode <;> rfl
  exact (h.code code).1 (hsame ▸ hv)

/-- A branch that was picked is evaluated if it is code. -/
theorem branch (h : T.Upheld host site)
    (hinner : ∀ code, Keeps T (T.code code) (inner code) T.value) (v : Value) :
    Keeps T (T.value v) (match v.toCode? with
      | some code => inner code
      | none => Eval.pure v) T.value := by
  split
  · next code hcode => exact (hinner code).of_pre fun hv => h.code_of_toCode? hv hcode
  · exact .pure v

/-- `cond` evaluates one of its arguments, or gives it back. -/
theorem condProcedure (h : T.Upheld host site)
    (hinner : ∀ code, Keeps T (T.code code) (inner code) T.value) (args : List Value) :
    Keeps T (∀ v ∈ args, T.value v) (condProcedure inner args) T.value := by
  unfold Eval.condProcedure
  refine (h.checked _).bind fun _ => (h.branch hinner _).of_pre fun hs => ?_
  split
  · split
    · exact hs.1 _ (by simp)
    · exact h.plain _ (.bool false)
  · split
    · exact hs.1 _ (by simp)
    · exact hs.1 _ (by simp)
  · exact h.plain _ .nil

/-- `dir` gives texts. -/
theorem dirProcedure (h : T.Upheld host site) (args : List Value) :
    Keeps T pre (dirProcedure host site args) T.value := by
  unfold Eval.dirProcedure
  refine (h.checked _).bind fun _ => ?_
  refine .bind_get fun m => ?_
  split
  · exact (Keeps.pure _).of_pre fun _ => h.toAmple.texts _
  · exact (Keeps.pure _).of_pre fun _ => h.toAmple.texts _
  · exact (Keeps.pure _).of_pre fun _ => h.toAmple.texts _
  · exact (Keeps.fail _).of_pre fun _ => h.fault _

/-- A standard procedure keeps to the terms. -/
theorem applyStandard (h : T.Upheld host site)
    (hinner : ∀ code, Keeps T (T.code code) (inner code) T.value) (args : List Value)
    (p : Standard) :
    Keeps T (∀ v ∈ args, T.value v) (applyStandard host site inner args p) T.value := by
  rcases applyStandard_cases host site args p with ⟨r, hr, hresult⟩ | rfl | rfl | rfl | rfl
  · rw [hresult]
    exact h.standard hr
  · refine (Keeps.record h.journal rfl rfl).bind fun _ => (Keeps.pure _).of_pre fun _ => ?_
    exact h.plain _ .nil
  · exact (Keeps.pure _).of_pre fun hargs => (h.sequence _ args).2 hargs
  · exact h.condProcedure hinner args
  · exact h.dirProcedure args

/-- A procedure that keeps to the terms, called in an allowed way. -/
theorem applyProc (h : T.Upheld host site)
    (hinner : ∀ code, Keeps T (T.code code) (inner code) T.value) (args : List Value) (p : Proc) :
    Keeps T ((T.value (.proc p) ∧ ∀ v ∈ args, T.value v) ∧ T.event (.called p args))
      (applyProc host site inner args p) T.value := by
  cases p with
  | standard p => exact (h.applyStandard hinner args p).of_pre fun hs => hs.1.2
  | host p =>
    exact (h.runScript hinner (host.call p args)).of_pre fun hs => h.host.call p args hs.1.2
  | machine module name =>
    exact (h.runScript hinner (host.invoke module name args)).of_pre fun hs =>
      h.host.invoke module name args hs.1.2
  | method receiver name =>
    refine (h.conclude _).of_pre fun hs => ?_
    have hmethod := h.toAmple.method receiver name args
    cases receiver with
    | object d => exact h.host.method d name args hs.1.1 hs.1.2
    | _ => exact hmethod
  | function name key =>
    exact (h.conclude _).of_pre fun hs => h.host.function name key args hs.1.2

/-- A call keeps to the terms. -/
theorem call (h : T.Upheld host site)
    (hinner : ∀ code, Keeps T (T.code code) (inner code) T.value) (p : Proc) (args : List Value) :
    Keeps T (T.value (.proc p) ∧ ∀ v ∈ args, T.value v) (Eval.call host site inner p args)
      T.value := by
  unfold Eval.call
  refine (Keeps.record h.journal rfl rfl).bind fun _ => ?_
  refine ((h.applyProc hinner args p).mapFailure h.ofCall).bind fun v => ?_
  exact (h.settle site.session v).of_pre fun hs => hs.2

/-- A member of a value on the terms. -/
theorem memberOf (h : T.Upheld host site) (v : Value) (name : String) :
    Keeps T (T.value v) (Eval.member host site v name) T.value := by
  unfold Eval.member
  refine .bind_get fun m => ?_
  dsimp only
  split
  · next module =>
    have hfound := (Keeps.ofExcept (host.member module name m.host)).of_pre
      fun hs : T.value (.machine module) ∧ T.machine m => h.host.member m module name hs.2
    exact hfound.bind fun found => (h.settle site.session found).of_pre fun hs => hs.2
  · have hfound := (Keeps.ofResult h.fault
        (v.member (fun d n => (host.method? d n).isSome) name)).of_pre
      fun hs : T.value v ∧ T.machine m => fun w hw => h.member _ v name w hs.1 hw
    exact hfound.bind fun found => (h.settle site.session found).of_pre fun hs => hs.2

-- ====================================================== special forms

/-- The value of a symbol. -/
theorem lookupForm (h : T.Upheld host site) (name : String) :
    Keeps T pre (Eval.lookup site name) T.value := by
  unfold Eval.lookup
  split
  · exact (Keeps.pure _).of_pre fun _ => h.plain _ (.text _)
  · refine .bind_get fun m => ?_
    split
    · next v hv => exact (Keeps.pure v).of_pre fun hs => h.lookup m site.frame name v hs.2 hv
    · exact (Keeps.fail _).of_pre fun _ => h.fault _

/-- A member form. -/
theorem dotForm (h : T.Upheld host site)
    (hinner : ∀ code, Keeps T (T.code code) (inner code) T.value) (form : Code)
    (parts : List Code) :
    Keeps T (∀ c ∈ parts, T.code c) (dotForm host site inner form parts) T.value := by
  unfold Eval.dotForm
  split
  · next object name =>
    refine ((hinner object).of_pre fun hparts => hparts _ List.mem_cons_self).bind fun v => ?_
    exact (h.memberOf v _).of_pre fun hs => hs.2
  · exact h.complain _ _
  · exact h.complain _ _

/-- A test is evaluated and looked at. -/
theorem holds (hinner : ∀ code, Keeps T (T.code code) (inner code) T.value) (test : Code) :
    Keeps T (T.code test) (Eval.holds inner test) fun _ => True := by
  unfold Eval.holds
  exact (hinner test).bind fun v => .bind_get fun m => (Keeps.pure _).of_pre fun _ => trivial

/-- A choice. -/
theorem ifForm (h : T.Upheld host site)
    (hinner : ∀ code, Keeps T (T.code code) (inner code) T.value) (form : Code)
    (parts : List Code) : Keeps T (∀ c ∈ parts, T.code c) (ifForm inner form parts) T.value := by
  unfold Eval.ifForm
  split
  · refine ((holds hinner _).of_pre fun hparts => hparts _ List.mem_cons_self).bind fun b => ?_
    split
    · exact (hinner _).of_pre fun hs => hs.1 _ (by simp)
    · exact (Keeps.pure _).of_pre fun _ => h.plain _ (.bool false)
  · refine ((holds hinner _).of_pre fun hparts => hparts _ List.mem_cons_self).bind fun b => ?_
    split
    · exact (hinner _).of_pre fun hs => hs.1 _ (by simp)
    · exact (hinner _).of_pre fun hs => hs.1 _ (by simp)
  · exact h.complain _ _

/-- A definition. -/
theorem defineForm (h : T.Upheld host site)
    (hinner : ∀ code, Keeps T (T.code code) (inner code) T.value) (form : Code)
    (parts : List Code) :
    Keeps T (∀ c ∈ parts, T.code c) (defineForm site inner form parts) T.value := by
  unfold Eval.defineForm
  split
  · split
    · split
      · exact (Keeps.fail _).of_pre fun _ => h.fault _
      · refine ((hinner _).of_pre fun hparts => hparts _ (by simp)).bind fun v => ?_
        refine ((h.defines site.frame _ v).of_pre fun hs => hs.2).bind fun _ => ?_
        exact (Keeps.pure v).of_pre fun hs => hs.1.2
    · exact h.complain _ _
  · exact h.complain _ _

/-- A module that was imported before or is found now. -/
theorem importModule (h : T.Upheld host site) (session : Nat) (name : String) :
    Keeps T pre (importModule session name) T.value := by
  unfold Eval.importModule
  refine .bind_get fun m => ?_
  split
  · next v hv => exact (Keeps.pure v).of_pre fun hs => h.imported m name v hs.2 hv
  · have hasked := fun hs : pre ∧ T.machine m => h.asked m name hs.2
    -- searching for a module stores nothing
    have hcells {cells : Cells} : (Imports.ask name m.host 0 m.imports.resolvers).events.flatMap
        Event.cells ++ cells = cells := by
      rw [List.flatMap_eq_nil_iff.2 (Imports.ask_events name (fun _ => rfl) (fun _ => rfl) _ _ _),
        List.nil_append]
    have hmoved : Keeps T (pre ∧ T.machine m) (Eval.modify fun m' : Machine σ =>
        { m' with
          host := (Imports.ask name m.host 0 m.imports.resolvers).state,
          journal := (Imports.ask name m.host 0 m.imports.resolvers).events ++ m'.journal })
        fun _ => True :=
      .modify (fun _ => (Imports.ask name m.host 0 m.imports.resolvers).events)
        (fun _ => ⟨rfl, Imports.ask_events name (fun _ => rfl) (fun _ => rfl) _ _ _, hcells.symm⟩)
        fun hs m' hm' => h.journal _ _ ((hasked hs).2 m' hm')
    refine hmoved.bind fun _ => ?_
    cases hanswer : (Imports.ask name m.host 0 m.imports.resolvers).answer with
    | error e =>
      refine (Keeps.fail e).of_pre fun hs => ?_
      have := (hasked hs.1).1
      rwa [hanswer] at this
    | ok v =>
      have hv : pre ∧ T.machine m → T.value v := fun hs => by
        have := (hasked hs).1
        rwa [hanswer] at this
      refine ((h.settle session v).of_pre fun hs => hv hs.1).bind fun w => ?_
      have hkept : Keeps T (T.value w) (Eval.modify fun m' : Machine σ =>
          { m' with imports := m'.imports.remember name w }) fun _ => True :=
        .modify (fun _ => []) (fun _ => .nil rfl rfl) fun hw m' hm' => h.remember m' name w hm' hw
      refine (hkept.of_pre fun hs => hs.2).bind fun _ => ?_
      exact (Keeps.pure w).of_pre fun hs => hs.1.2

/-- A module by a name that was evaluated. -/
theorem importNamed (h : T.Upheld host site) (v : Value) :
    Keeps T pre (importNamed site v) T.value := by
  unfold Eval.importNamed
  split
  · exact h.importModule site.session _
  · exact .bind_get fun _ => (Keeps.fail _).of_pre fun _ => h.fault _

/-- An import. -/
theorem importForm (h : T.Upheld host site)
    (hinner : ∀ code, Keeps T (T.code code) (inner code) T.value) (form : Code)
    (parts : List Code) :
    Keeps T (∀ c ∈ parts, T.code c) (importForm site inner form parts) T.value := by
  unfold Eval.importForm
  split
  · split
    · refine ((hinner _).of_pre fun hparts => hparts _ List.mem_cons_self).bind fun v => ?_
      exact h.importNamed v
    · exact h.importModule site.session _
  · refine ((hinner _).of_pre fun hparts => hparts _ List.mem_cons_self).bind fun v => ?_
    exact h.importNamed v
  · exact h.complain _ _

/-- A quotation. -/
theorem quoteForm (h : T.Upheld host site) (parts : List Code) :
    Keeps T (∀ c ∈ parts, T.code c) (quoteForm parts : Eval σ Value) T.value := by
  unfold Eval.quoteForm
  split
  · refine .bind_get fun m => (Keeps.pure _).of_pre fun hs => (h.code _).2 ?_
    exact h.readCode m _ hs.2 (hs.1 _ List.mem_cons_self)
  · exact (Keeps.pure _).of_pre fun _ => h.plain _ (.bool false)

/-- A call or a sequence. -/
theorem apply (h : T.Upheld host site)
    (hinner : ∀ code, Keeps T (T.code code) (inner code) T.value) (head : Code)
    (rest : List Code) :
    Keeps T (∀ c ∈ head :: rest, T.code c) (apply host site inner head rest) T.value := by
  unfold Eval.apply
  refine ((hinner head).of_pre fun hparts => hparts _ List.mem_cons_self).bind fun v => ?_
  refine ((Keeps.collect hinner rest).of_pre fun hs => fun c hc =>
    hs.1 c (List.mem_cons_of_mem head hc)).bind fun args => ?_
  refine .bind_get fun m => ?_
  have hrow : Keeps T ((((∀ c ∈ head :: rest, T.code c) ∧ T.value v) ∧ ∀ b ∈ args, T.value b)
      ∧ T.machine m) (Eval.settle site.session (Value.row (v :: args))) T.value :=
    (h.settle site.session _).of_pre fun hs =>
      (h.sequence _ _).2 (List.forall_mem_cons.2 ⟨hs.1.1.2, hs.1.2⟩)
  cases v with
  | proc p =>
    -- the procedure and its operands are read before the call
    refine (h.call hinner _ _).of_pre fun hs => ⟨h.read m (.proc p) hs.2 hs.1.1.2, ?_⟩
    rw [Value.readAll_eq_map]
    intro w hw
    obtain ⟨u, hu, rfl⟩ := List.mem_map.1 hw
    exact h.read m u hs.2 (hs.1.2 u hu)
  | _ => exact hrow

/-- A list is one of the forms. -/
theorem evalList (h : T.Upheld host site)
    (hinner : ∀ code, Keeps T (T.code code) (inner code) T.value) (form : Code)
    (items : List Code) :
    Keeps T (∀ c ∈ items, T.code c) (evalList host site inner form items) T.value := by
  unfold Eval.evalList
  split
  · exact (h.settle site.session _).of_pre fun _ => (h.sequence _ _).2 (List.forall_mem_nil _)
  · next head rest =>
    have hrest : (∀ c ∈ head :: rest, T.code c) → ∀ c ∈ rest, T.code c :=
      fun hitems c hc => hitems c (List.mem_cons_of_mem head hc)
    split
    · exact (h.dotForm hinner form rest).of_pre hrest
    · exact (h.ifForm hinner form rest).of_pre hrest
    · exact (h.defineForm hinner form rest).of_pre hrest
    · exact (h.importForm hinner form rest).of_pre hrest
    · exact (h.quoteForm rest).of_pre hrest
    · exact h.apply hinner head rest

theorem wideLiteral (h : T.Upheld host site) (mark : Mark) (n : Int) :
    Keeps T (T.code (.wide mark n)) (Eval.wideLiteral site mark n) T.value := by
  unfold Eval.wideLiteral
  refine .bind_get fun m => (h.settle site.session _).of_pre fun hs => ?_
  exact h.literal mark _ (h.readCode m (.wide mark n) hs.2 hs.1)

/-- One step keeps to the terms if those inside of it do. -/
theorem step (h : T.Upheld host site)
    (hinner : ∀ code, Keeps T (T.code code) (inner code) T.value) (code : Code) :
    Keeps T (T.code code) (step host site inner code) T.value := by
  unfold Eval.step
  refine h.checkpoint.bind fun _ => ?_
  cases code with
  | symbol name => exact h.lookupForm name
  | int n => exact (Keeps.pure _).of_pre fun _ => h.plain _ (.int n)
  | float x => exact (Keeps.pure _).of_pre fun _ => h.plain _ (.float x)
  | text s => exact (Keeps.pure _).of_pre fun _ => h.plain _ (.text s)
  | wide mark n => exact (h.wideLiteral mark n).of_pre fun hs => hs.1
  | list mark items =>
    exact (h.evalList hinner _ items).of_pre fun hs => (h.items mark items).1 hs.1

/-- Evaluating code on the terms, however deep, keeps to them. -/
theorem eval (h : T.Upheld host site) (depth : Nat) (code : Code) :
    Keeps T (T.code code) (eval host site depth code) T.value := by
  induction depth generalizing code with
  | zero => exact .spent
  | succ depth ih => exact h.step ih code

-- ====================================================== texts

/-- A form on the terms, whatever marks its lists get. -/
def form (T : Terms σ) (session : Nat) (form : Form) : Prop :=
  ∀ serial, T.code (form.stamp session serial).1

/-- Marking forms one after the other. -/
theorem stampAll {T : Terms σ} {session : Nat} {forms : List Form}
    (h : ∀ f ∈ forms, form T session f) (serial : Nat) :
    ∀ c ∈ (Expr.stampAll session serial forms).1, T.code c := by
  induction forms generalizing serial with
  | nil => exact List.forall_mem_nil _
  | cons f rest ih =>
    refine List.forall_mem_cons.2 ⟨h f List.mem_cons_self serial, ?_⟩
    exact ih (fun g hg => h g (List.mem_cons_of_mem f hg)) _

/-- Forms made of tokens are on the terms. -/
theorem form_of_denotes (h : T.Upheld host site) {session : Nat} {tokens : List Token}
    {forms : List Form} (hforms : Reader.Denotes tokens forms) :
    ∀ f ∈ forms, form T session f := by
  induction hforms with
  | nil => exact List.forall_mem_nil _
  | @atom token _ _ _ _ _ ih =>
    exact List.forall_mem_cons.2 ⟨h.token token session, ih⟩
  | list _ _ ihitems ihrest =>
    refine List.forall_mem_cons.2 ⟨fun serial => ?_, ihrest⟩
    exact (h.items _ _).2 (stampAll ihitems (serial + 1))

section

variable (depth : Nat)

/-- Evaluating a form. -/
theorem evalForm (h : T.Upheld host site) (f : Form) :
    Keeps T (form T site.session f) (Interpreter.evalForm ⟨host, site, depth⟩ f) T.value := by
  have hstamp : Keeps T (form T site.session f) (Eval.stamp site.session f) T.code := by
    intro m answer m' hrun
    cases hrun
    exact ⟨[], .nil rfl rfl, fun hf hm _ => ⟨h.counts m _ m.queries m.journal hm, hf (m.serial _)⟩⟩
  exact hstamp.bind fun code => (h.eval depth code).of_pre fun hs => hs.2

/-- Evaluating forms up to the first failure. -/
theorem evalForms (h : T.Upheld host site) (v : Value) (forms : List Form) :
    Keeps T (T.value v ∧ ∀ f ∈ forms, form T site.session f)
      (Interpreter.evalForms ⟨host, site, depth⟩ v forms) T.value := by
  induction forms generalizing v with
  | nil => exact (Keeps.pure v).of_pre fun hs => hs.1
  | cons f rest ih =>
    have hfirst := (h.evalForm depth f).of_pre
      fun hs : T.value v ∧ ∀ g ∈ f :: rest, form T site.session g => hs.2 f List.mem_cons_self
    refine hfirst.bind fun w => (ih w).of_pre fun hs => ⟨hs.2, fun g hg => ?_⟩
    exact hs.1.2 g (List.mem_cons_of_mem f hg)

/-- Evaluating a text up to the first failure. -/
theorem evalSource (h : T.Upheld host site) (source : String) :
    Keeps T pre (Interpreter.evalSource ⟨host, site, depth⟩ source) T.value := by
  unfold Interpreter.evalSource
  split
  · exact (Keeps.fail _).of_pre fun _ => h.fault _
  · next forms hread =>
    refine (h.evalForms depth .nil forms).of_pre fun _ => ⟨h.plain _ .nil, ?_⟩
    obtain ⟨tokens, -, hdenotes⟩ := Reader.readAll_eq_ok_iff.1 hread
    exact h.form_of_denotes hdenotes

theorem loadFile (h : T.Upheld host site) (name : String) (content : Except Failure String) :
    Keeps T (T.answer (fun _ => True) content)
      (Interpreter.loadFile ⟨host, site, depth⟩ name content) fun _ => True := by
  refine .mapFailure (h.within _) ((Keeps.ofExcept content).bind fun source => ?_)
  exact (h.evalSource depth source).bind fun _ => (Keeps.pure ()).of_pre fun _ => trivial

/-- Evaluating what was read, or failing with why it was not. -/
theorem evalRead (h : T.Upheld host site) (read : Except Fault Form) :
    Keeps T (∀ f, read = .ok f → form T site.session f)
      (Interpreter.evalRead ⟨host, site, depth⟩ read) T.value := by
  cases read with
  | error f => exact (Keeps.fail _).of_pre fun _ => h.fault f
  | ok f => exact (h.evalForm depth f).of_pre fun hs => hs f rfl

/-- Running forms, whatever becomes of each. -/
theorem runForms (h : T.Upheld host site) {report : Except Failure Value → Eval σ Unit}
    (hreport : ∀ outcome, Keeps T True (report outcome) fun _ => True) (index : Nat)
    (reads : List (Except Fault Form)) :
    Keeps T (∀ f, .ok f ∈ reads → form T site.session f)
      (Interpreter.runForms ⟨host, site, depth⟩ report index reads)
      fun outcomes => ∀ outcome ∈ outcomes, T.answer T.value outcome := by
  induction reads generalizing index with
  | nil => exact (Keeps.pure []).of_pre fun _ => List.forall_mem_nil _
  | cons read rest ih =>
    unfold Interpreter.runForms
    have hread := (h.evalRead depth read).of_pre
      fun hs : ∀ f, .ok f ∈ read :: rest → form T site.session f =>
        fun f hf => hs f (hf ▸ List.mem_cons_self)
    refine hread.attempt.bind fun outcome => ?_
    have hreports {pre : Prop} := (hreport outcome).of_pre fun _ : pre => trivial
    -- whatever comes between, the rest is run and this outcome is put in front
    have hfurther {more : Prop} : Keeps T
        (((∀ f, .ok f ∈ read :: rest → form T site.session f) ∧ T.answer T.value outcome) ∧ more)
        (Eval.bind (Interpreter.runForms ⟨host, site, depth⟩ report (index + 1) rest)
          fun further => Eval.pure (outcome :: further))
        fun outcomes => ∀ outcome ∈ outcomes, T.answer T.value outcome := by
      refine ((ih (index + 1)).of_pre fun hs => fun f hf =>
        hs.1.1 f (List.mem_cons_of_mem read hf)).bind fun further => ?_
      exact (Keeps.pure _).of_pre fun hs => List.forall_mem_cons.2 ⟨hs.1.1.2, hs.2⟩
    cases outcome with
    | ok v => exact hreports.bind fun _ => hfurther
    | error e =>
      refine (Keeps.record h.journal rfl rfl).bind fun _ => hreports.bind fun _ => ?_
      refine h.checkpoint.attempt.bind fun answer => ?_
      cases answer with
      | error e' =>
        exact (Keeps.pure _).of_pre fun hs => List.forall_mem_singleton.2 hs.1.1.1.2
      | ok _ => exact hfurther.of_pre fun hs => ⟨hs.1.1.1, trivial⟩

/-- Running a text. -/
theorem runSource (h : T.Upheld host site) {report : Except Failure Value → Eval σ Unit}
    (hreport : ∀ outcome, Keeps T True (report outcome) fun _ => True) (source : String) :
    Keeps T pre (Interpreter.runSource ⟨host, site, depth⟩ report source)
      fun outcomes => ∀ outcome ∈ outcomes, T.answer T.value outcome := by
  unfold Interpreter.runSource
  split
  · next f _ =>
    refine ((hreport _).of_pre fun _ => trivial).bind fun _ => (Keeps.pure _).of_pre fun _ => ?_
    exact List.forall_mem_singleton.2 (h.fault f)
  · next tokens _ =>
    refine (h.runForms depth hreport 0 _).of_pre fun _ f hf => ?_
    obtain ⟨chunks, hchunks, heach⟩ := Reader.readEach_partition tokens
    rw [Reader.forms, heach, Reader.map_remainders] at hf
    obtain ⟨⟨used, read⟩, hchunk, rfl⟩ := List.mem_map.1 hf
    cases hchunks.each _ hchunk with
    | form hdenotes => exact h.form_of_denotes hdenotes f List.mem_cons_self

/-- Running a program. -/
theorem program (h : T.Upheld host site) (source : String) :
    Keeps T pre (Interpreter.program ⟨host, site, depth⟩ source)
      fun outcomes => ∀ outcome ∈ outcomes, T.answer T.value outcome :=
  h.runSource depth (fun _ => (Keeps.pure ()).of_pre fun _ => trivial) source

end

end Terms.Upheld

-- ====================================================== asking for nothing

/-- Terms that ask for nothing. -/
def Terms.lax (σ : Type) : Terms σ :=
  ⟨fun _ => True, fun _ => True, fun _ => True, fun _ => True, fun _ => True⟩

theorem Terms.lax_answer (answer : Except Failure Value) :
    (Terms.lax σ).answer (Terms.lax σ).value answer := by
  cases answer <;> trivial

/-- Every script will do. -/
theorem Script.keeps_lax (script : Script σ) : script.Keeps (Terms.lax σ) := by
  induction script with
  | finish answer => exact .finish (Terms.lax_answer answer)
  | eval code next ih => exact .eval trivial fun answer _ => ih answer
  | get next ih => exact .get fun m _ => ih m.host m.cells
  | set state stored next ih => exact .set (fun _ _ => trivial) ih
  | lookup frame name next ih => exact .lookup fun found _ => ih found
  | bind frame name value next ih => exact .bind trivial ih

/-- Every value and every failure will do. -/
theorem Terms.lax_ample : (Terms.lax σ).Ample where
  plain _ _ := trivial
  number _ := trivial
  sequence _ _ := ⟨fun _ _ _ => trivial, fun _ => trivial⟩
  set _ _ _ _ _ := trivial
  proc _ _ := trivial
  fault _ := trivial
  other _ := trivial
  within _ _ _ := trivial
  ofCall _ _ := trivial

/-- Every evaluation leaves the journal it found, and the cells. -/
theorem Terms.lax_upheld (host : Host σ) (site : Site) : (Terms.lax σ).Upheld host site := by
  constructor
  case toAmple => exact Terms.lax_ample
  case items => exact fun _ _ => ⟨fun _ _ _ => trivial, fun _ => trivial⟩
  case code => exact fun _ => Iff.rfl
  case asked => exact fun _ _ _ => ⟨Terms.lax_answer _, fun _ _ => trivial⟩
  case host =>
    exact ⟨fun _ _ _ => Script.keeps_lax _, fun _ _ _ _ => Script.keeps_lax _,
      fun _ _ _ _ => Terms.lax_answer _, fun _ _ _ _ _ _ => Terms.lax_answer _,
      fun _ _ _ _ _ => Terms.lax_answer _⟩
  all_goals
    intros
    trivial

end LispShell
