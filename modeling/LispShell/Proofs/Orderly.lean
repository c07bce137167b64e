/-
What one step of an evaluation can do.

A step asks whether to go on and then evaluates expressions inside,
changes the machine, calls procedures. `Orderly` says once what all of
that comes to: such a computation evaluates expressions only through
`inner`, asks no question of its own, writes into the journal without
taking anything out, and if an expression inside was cancelled it ends
there and then with a cancellation. Every special form, every standard
procedure and every import is orderly by composition; `step_orderly` puts
them together. What holds of all orderly computations is then shown by
one induction on `Orderly` and not form by form.

# Hosts

A procedure of the host may evaluate code and gets to see how that
failed. It could go on after a cancellation as if nothing had happened;
that a host does not do so is `Host.Relays`.
-/
import LispShell.Program
import LispShell.Sample

namespace LispShell

variable {σ α β : Type}

-- ============================================== the journal

/-- Whether an event is a question whether to go on. -/
def Event.isQuery : Event → Bool
  | .queried .. => true
  | _ => false

/-- The second machine comes from the first: its journal only got longer,
and it counted the questions in it. -/
def Machine.Follows (m m' : Machine σ) : Prop :=
  ∃ new, m'.journal = new ++ m.journal ∧ m'.queries = m.queries + new.countP Event.isQuery

theorem Machine.Follows.refl (m : Machine σ) : m.Follows m :=
  ⟨[], rfl, rfl⟩

/-- What comes from a machine that comes from another comes from that. -/
theorem Machine.Follows.trans {m₁ m₂ m₃ : Machine σ} (h : m₁.Follows m₂)
    (h' : m₂.Follows m₃) : m₁.Follows m₃ := by
  obtain ⟨new, hnew, hqueries⟩ := h
  obtain ⟨new', hnew', hqueries'⟩ := h'
  refine ⟨new' ++ new, ?_, ?_⟩
  · rw [hnew', hnew, List.append_assoc]
  · rw [hqueries', hqueries, List.countP_append]
    omega

theorem Machine.Follows.queries_le {m m' : Machine σ} (h : m.Follows m') :
    m.queries ≤ m'.queries := by
  obtain ⟨new, -, hqueries⟩ := h
  omega

/-- A change of the machine that asks nothing. -/
def Quiet (f : Machine σ → Machine σ) : Prop :=
  ∀ m, m.Follows (f m) ∧ (f m).queries = m.queries

/-- A change that writes events, none of them a question. -/
theorem Quiet.of_journal {f : Machine σ → Machine σ} (events : Machine σ → List Event)
    (hjournal : ∀ m, (f m).journal = events m ++ m.journal)
    (hevents : ∀ m, ∀ e ∈ events m, e.isQuery = false)
    (hqueries : ∀ m, (f m).queries = m.queries) : Quiet f := by
  intro m
  have hcount : (events m).countP Event.isQuery = 0 :=
    List.countP_eq_zero.2 fun e he => by simp [hevents m e he]
  refine ⟨⟨events m, hjournal m, ?_⟩, hqueries m⟩
  rw [hqueries m, hcount, Nat.add_zero]

/-- A change that writes no event. -/
theorem Quiet.of_silent {f : Machine σ → Machine σ}
    (hjournal : ∀ m, (f m).journal = m.journal) (hqueries : ∀ m, (f m).queries = m.queries) :
    Quiet f :=
  .of_journal (fun _ => []) hjournal (fun _ _ he => nomatch he) hqueries

namespace Eval

-- ============================================== one thing after the other

/-- Three computations in a row, however they are put together. -/
theorem bind_assoc {γ : Type} (x : Eval σ α) (f : α → Eval σ β) (g : β → Eval σ γ) :
    Eval.bind (Eval.bind x f) g = Eval.bind x fun a => Eval.bind (f a) g := by
  funext m
  unfold Eval.bind
  cases x m with
  | spent => rfl
  | done answer m => cases answer <;> rfl

/-- Catching a failure and failing with it again changes nothing. -/
theorem bind_attempt_ofExcept (x : Eval σ α) : Eval.bind (attempt x) ofExcept = x := by
  funext m
  unfold Eval.bind attempt
  cases x m with
  | spent => rfl
  | done answer m => cases answer <;> rfl

theorem bind_done {x : Eval σ α} {f : α → Eval σ β} {m m' : Machine σ} {a : α}
    (h : x m = .done (.ok a) m') : Eval.bind x f m = f a m' := by
  simp only [Eval.bind, h]

theorem bind_failed {x : Eval σ α} {f : α → Eval σ β} {m m' : Machine σ} {e : Failure}
    (h : x m = .done (.error e) m') : Eval.bind x f m = .done (.error e) m' := by
  simp only [Eval.bind, h]

/-- A value at the end comes after a value of the first part. -/
theorem bind_eq_ok {x : Eval σ α} {f : α → Eval σ β} {m m' : Machine σ} {b : β}
    (h : Eval.bind x f m = .done (.ok b) m') :
    ∃ a m₁, x m = .done (.ok a) m₁ ∧ f a m₁ = .done (.ok b) m' := by
  cases hx : x m with
  | spent => simp [Eval.bind, hx] at h
  | done answer m₁ =>
    cases answer with
    | error e => simp [Eval.bind, hx] at h
    | ok a =>
      rw [bind_done hx] at h
      exact ⟨a, m₁, rfl, h⟩

/-- What follows an attempt gets its answer, also where that is a failure.
-/
theorem bind_attempt {x : Eval σ α} {f : Except Failure α → Eval σ β} {m m' : Machine σ}
    {answer : Except Failure α} (h : x m = .done answer m') :
    Eval.bind (attempt x) f m = f answer m' := by
  simp only [Eval.bind, attempt, h]

-- ============================================== asking

/-- The machine after it was asked. -/
def asked (m : Machine σ) : Machine σ :=
  { m with
    queries := m.queries + 1
    journal := .queried m.frames m.imports.imported m.cells :: m.journal }

/-- Asking writes one question into the journal. -/
theorem follows_asked (m : Machine σ) : m.Follows (asked m) :=
  ⟨[.queried m.frames m.imports.imported m.cells], rfl, rfl⟩

/-- As long as patience lasts the answer is yes. -/
theorem checkpoint_of_lt {n : Nat} {m : Machine σ} (h : m.queries < n) :
    checkpoint (some n) m = .done (.ok ()) (asked m) := by
  simp only [checkpoint, if_pos h]
  rfl

/-- Once it is used up the answer is no. -/
theorem checkpoint_of_le {n : Nat} {m : Machine σ} (h : n ≤ m.queries) :
    checkpoint (some n) m = .done (.error .canceled) (asked m) := by
  simp only [checkpoint, if_neg (Nat.not_lt.2 h)]
  rfl

-- ============================================== orderly computations

/-- A computation that evaluates expressions only through `inner`, asks
nothing itself, and ends with a cancellation as soon as one comes from
inside. -/
inductive Orderly : (Inner σ → Eval σ α) → Prop where
  | finish (answer : Except Failure α) : Orderly fun _ => ofExcept answer
  | look {next : Machine σ → Inner σ → Eval σ α} (h : ∀ m, Orderly (next m)) :
      Orderly fun inner m => next m inner m
  | change {f : Machine σ → Machine σ} {next : Inner σ → Eval σ α} (quiet : Quiet f)
      (h : Orderly next) : Orderly fun inner m => next inner (f m)
  | ask (code : Code) {next : Except Failure Value → Inner σ → Eval σ α}
      (h : ∀ answer, Orderly (next answer))
      (relay : ∀ e, e.isCanceled = true →
        ∃ e', e'.isCanceled = true ∧ next (.error e) = fun _ => fail e') :
      Orderly fun inner => Eval.bind (attempt (inner code)) fun answer => next answer inner

namespace Orderly

theorem pure (a : α) : Orderly fun _ : Inner σ => Eval.pure a :=
  .finish (.ok a)

/-- Ending with a failure. -/
theorem fail (e : Failure) : Orderly fun _ : Inner σ => (Eval.fail e : Eval σ α) :=
  .finish (.error e)

theorem ofResult (r : Except Fault α) :
    Orderly fun _ : Inner σ => (Eval.ofResult r : Eval σ α) := by
  cases r with
  | ok a => exact .finish (.ok a)
  | error f => exact .finish (.error (.fault f))

theorem modify {f : Machine σ → Machine σ} (hf : Quiet f) :
    Orderly fun _ : Inner σ => Eval.modify f := by
  have h := Orderly.change hf (.finish (.ok ()))
  exact h

/-- The evaluation of an expression inside. -/
theorem inner (code : Code) : Orderly fun inner : Inner σ => inner code := by
  have h : Orderly fun inner : Inner σ =>
      Eval.bind (attempt (inner code)) fun answer => ofExcept answer :=
    .ask code (fun answer => .finish answer) fun e he => ⟨e, he, rfl⟩
  have heq : (fun inner : Inner σ =>
        Eval.bind (attempt (inner code)) fun answer => ofExcept answer)
      = fun inner => inner code := by
    funext inner
    exact bind_attempt_ofExcept (inner code)
  rwa [heq] at h

/-- One orderly computation after another: a cancellation in the first
ends both. -/
theorem bind {x : Inner σ → Eval σ α} {f : α → Inner σ → Eval σ β} (hx : Orderly x)
    (hf : ∀ a, Orderly (f a)) : Orderly fun inner => Eval.bind (x inner) fun a => f a inner := by
  induction hx with
  | finish answer =>
    cases answer with
    | ok a => exact hf a
    | error e => exact .finish (.error e)
  | look _ ih =>
    have h := Orderly.look ih
    exact h
  | change quiet _ ih =>
    have h := Orderly.change quiet ih
    exact h
  | @ask code next _ relay ih =>
    -- the question goes to the front, so that what follows is one `next`
    have heq : (fun inner => Eval.bind (Eval.bind (attempt (inner code)) fun answer =>
          next answer inner) fun a => f a inner)
        = fun inner : Inner σ => Eval.bind (attempt (inner code)) fun answer =>
          Eval.bind (next answer inner) fun a => f a inner := by
      funext inner
      exact bind_assoc _ _ _
    rw [heq]
    refine .ask code ih fun e he => ?_
    obtain ⟨e', he', hnext⟩ := relay e he
    refine ⟨e', he', ?_⟩
    rw [hnext]
    rfl

theorem bind_get {f : Machine σ → Inner σ → Eval σ α} (hf : ∀ m, Orderly (f m)) :
    Orderly fun inner => Eval.bind get fun m => f m inner := by
  have h := Orderly.look hf
  exact h

/-- A failure may be changed if a cancellation stays one. -/
theorem mapFailure {g : Failure → Failure}
    (hg : ∀ e, e.isCanceled = true → (g e).isCanceled = true) {x : Inner σ → Eval σ α}
    (hx : Orderly x) : Orderly fun inner => Eval.mapFailure g (x inner) := by
  induction hx with
  | finish answer =>
    cases answer with
    | ok a => exact .finish (.ok a)
    | error e => exact .finish (.error (g e))
  | look _ ih =>
    have h := Orderly.look ih
    exact h
  | change quiet _ ih =>
    have h := Orderly.change quiet ih
    exact h
  | @ask code next _ relay ih =>
    have heq : (fun inner => Eval.mapFailure g (Eval.bind (attempt (inner code)) fun answer =>
          next answer inner))
        = fun inner : Inner σ => Eval.bind (attempt (inner code)) fun answer =>
          Eval.mapFailure g (next answer inner) := by
      funext inner m
      unfold Eval.mapFailure Eval.bind attempt
      cases inner code m <;> rfl
    rw [heq]
    refine .ask code ih fun e he => ?_
    obtain ⟨e', he', hnext⟩ := relay e he
    refine ⟨g e', hg e' he', ?_⟩
    rw [hnext]
    rfl

/-- Evaluating a row of expressions: the first cancellation ends it. -/
theorem collect (codes : List Code) : Orderly fun inner : Inner σ => Eval.collect inner codes := by
  induction codes with
  | nil => exact .finish (.ok [])
  | cons code rest ih =>
    exact (Orderly.inner code).bind fun v => ih.bind fun vs => .pure (v :: vs)

end Orderly

end Eval

-- ============================================== hosts

/-- A script that hands on a cancellation that comes from code it
evaluates, as it is or inside another failure. -/
def Script.Relays : Script σ → Prop
  | .finish _ => True
  | .eval _ next => (∀ answer, (next answer).Relays)
      ∧ ∀ e, e.isCanceled = true →
        ∃ e', e'.isCanceled = true ∧ next (.error e) = .finish (.error e')
  | .get next => ∀ state cells, (next state cells).Relays
  | .set _ _ next => next.Relays
  | .lookup _ _ next => ∀ v, (next v).Relays
  | .bind _ _ _ next => next.Relays

/-- A host whose procedures all hand on cancellations. -/
structure Host.Relays (host : Host σ) : Prop where
  call : ∀ p args, (host.call p args).Relays
  invoke : ∀ module name args, (host.invoke module name args).Relays

/-- A cancellation that a procedure passes on is still one. -/
theorem Failure.isCanceled_ofCall {e : Failure} (h : e.isCanceled = true) :
    e.ofCall.isCanceled = true := by
  unfold Failure.ofCall
  split
  · exact h
  · exact h

/-- Asking resolvers leaves in the journal which of them were asked and what
they had to log. -/
theorem Imports.ask_events {P : Event → Prop} (name : String)
    (hasked : ∀ index, P (.asked index name)) (hlogged : ∀ entry, P (.logged entry))
    (resolvers : List (Resolver σ)) (state : σ) (index : Nat) :
    ∀ e ∈ (ask name state index resolvers).events, P e := by
  induction resolvers generalizing state index with
  | nil => exact List.forall_mem_nil _
  | cons r rest ih =>
    have hown : ∀ e ∈ ((r name state).log.map Event.logged).reverse ++ [Event.asked index name],
        P e := by
      refine List.forall_mem_append.2 ⟨fun e he => ?_, List.forall_mem_singleton.2 (hasked index)⟩
      obtain ⟨entry, -, rfl⟩ := List.mem_map.1 (List.mem_reverse.1 he)
      exact hlogged entry
    unfold ask
    dsimp only
    split
    · exact hown
    · split
      · exact List.forall_mem_append.2 ⟨ih _ _, hown⟩
      · exact hown

namespace Eval.Orderly

variable {host : Host σ}

/-- Counting one more identity is a quiet change. -/
theorem newMark (session : Nat) : Orderly fun _ : Inner σ => Eval.newMark session := by
  have hquiet : Quiet fun m : Machine σ => { m with made := m.made + 1 } :=
    .of_silent (fun _ => rfl) fun _ => rfl
  have h := Orderly.look fun m : Machine σ =>
    Orderly.change hquiet (.finish (.ok (Mark.made session (m.serial session))))
  exact h

theorem settle (session : Nat) (v : Value) :
    Orderly fun _ : Inner σ => Eval.settle session v := by
  unfold Eval.settle
  split
  · exact (newMark session).bind fun mark => .pure _
  · exact .pure v

/-- Storing in place is a quiet change. -/
theorem store (cells : Cells) : Orderly fun _ : Inner σ => Eval.store cells := by
  cases cells with
  | nil => exact .pure ()
  | cons cell rest => exact .modify fun _ => ⟨⟨[.stored (cell :: rest)], rfl, rfl⟩, rfl⟩

/-- Binding a symbol is a quiet change. -/
theorem define (frame : FrameId) (name : String) (v : Value) :
    Orderly fun _ : Inner σ => Eval.define frame name v :=
  .modify fun _ => ⟨⟨[.bound frame name v], rfl, rfl⟩, rfl⟩

/-- Writing an event that is no question is a quiet change. -/
theorem record {event : Event} (h : event.isQuery = false) :
    Orderly fun _ : Inner σ => Eval.record event := by
  refine .modify (.of_journal (fun _ => [event]) (fun _ => rfl) (fun _ e he => ?_) fun _ => rfl)
  rw [List.mem_singleton.1 he]
  exact h

-- ============================================== procedures

/-- A script that hands on cancellations is run in an orderly way. -/
theorem runScript {script : Script σ} (h : script.Relays) :
    Orderly fun inner => Eval.runScript inner script := by
  induction script with
  | finish answer => exact .finish answer
  | eval code next ih =>
    refine .ask code (fun answer => ih answer (h.1 answer)) fun e he => ?_
    obtain ⟨e', he', hnext⟩ := h.2 e he
    refine ⟨e', he', ?_⟩
    rw [hnext]
    rfl
  | get next ih =>
    have hnext := Orderly.bind_get fun m : Machine σ => ih m.host m.cells (h m.host m.cells)
    exact hnext
  | set state stored next ih =>
    have hquiet : Quiet fun m : Machine σ => { m with host := state } :=
      .of_silent (fun _ => rfl) fun _ => rfl
    exact (Orderly.modify hquiet).bind fun _ => (store stored).bind fun _ => ih h
  | lookup frame name next ih =>
    have hnext := Orderly.bind_get fun m : Machine σ => ih (m.frames.lookup frame name) (h _)
    exact hnext
  | bind frame name value next ih => exact (define frame name value).bind fun _ => ih h

/-- The procedure that evaluates the branch it picks. -/
theorem condProcedure (args : List Value) :
    Orderly fun inner : Inner σ => Eval.condProcedure inner args := by
  unfold Eval.condProcedure
  refine (ofResult _).bind fun _ => ?_
  dsimp only
  split
  · exact .inner _
  · exact .pure _

theorem dirProcedure (site : Site) (args : List Value) :
    Orderly fun _ : Inner σ => Eval.dirProcedure host site args := by
  unfold Eval.dirProcedure
  refine (ofResult _).bind fun _ => .bind_get fun m => ?_
  split
  · exact .pure _
  · exact .pure _
  · exact .pure _
  · exact .fail _

/-- The standard procedures. -/
theorem applyStandard (site : Site) (args : List Value) (p : Standard) :
    Orderly fun inner => Eval.applyStandard host site inner args p := by
  cases p with
  | print => exact (record rfl).bind fun _ => .pure _
  | list => exact .pure _
  | cond => exact condProcedure args
  | dir => exact dirProcedure site args
  | _ => exact ofResult _

theorem conclude (c : Called) : Orderly fun _ : Inner σ => Eval.conclude c :=
  (store c.stored).bind fun _ => .finish c.answer

/-- All procedures, given that those of the host hand on cancellations. -/
theorem applyProc (hhost : host.Relays) (site : Site) (args : List Value) (p : Proc) :
    Orderly fun inner => Eval.applyProc host site inner args p := by
  cases p with
  | standard p => exact applyStandard site args p
  | host p => exact runScript (hhost.call p args)
  | machine module name => exact runScript (hhost.invoke module name args)
  | method receiver name => exact conclude _
  | function name key => exact conclude _

/-- Recasting the failure of a procedure keeps a cancellation. -/
theorem call (hhost : host.Relays) (site : Site) (p : Proc) (args : List Value) :
    Orderly fun inner => Eval.call host site inner p args := by
  unfold Eval.call
  refine (record rfl).bind fun _ => ?_
  refine ((applyProc hhost site args p).mapFailure fun _ => Failure.isCanceled_ofCall).bind ?_
  exact fun v => settle site.session v

theorem member (site : Site) (v : Value) (name : String) :
    Orderly fun _ : Inner σ => Eval.member host site v name := by
  unfold Eval.member
  refine .bind_get fun m => ?_
  dsimp only
  split
  · exact (Orderly.finish _).bind fun found => settle site.session found
  · exact (ofResult _).bind fun found => settle site.session found

-- ============================================== special forms

theorem complain (f : String → Fault) (code : Code) :
    Orderly fun _ : Inner σ => (Eval.complain f code : Eval σ α) := by
  unfold Eval.complain
  exact .bind_get fun _ => .fail _

theorem lookup (site : Site) (name : String) :
    Orderly fun _ : Inner σ => Eval.lookup site name := by
  unfold Eval.lookup
  split
  · exact .pure _
  · refine .bind_get fun m => ?_
    split
    · exact .pure _
    · exact .fail _

theorem dotForm (site : Site) (form : Code) (parts : List Code) :
    Orderly fun inner => Eval.dotForm host site inner form parts := by
  unfold Eval.dotForm
  split
  · exact (Orderly.inner _).bind fun v => member site v _
  · exact complain _ _
  · exact complain _ _

theorem holds (test : Code) : Orderly fun inner : Inner σ => Eval.holds inner test :=
  (Orderly.inner test).bind fun _ => .bind_get fun _ => .pure _

/-- The test, then one branch. -/
theorem ifForm (form : Code) (parts : List Code) :
    Orderly fun inner : Inner σ => Eval.ifForm inner form parts := by
  unfold Eval.ifForm
  split
  · refine (holds _).bind fun b => ?_
    cases b with
    | true => exact .inner _
    | false => exact .pure _
  · refine (holds _).bind fun b => ?_
    cases b with
    | true => exact .inner _
    | false => exact .inner _
  · exact complain _ _

theorem defineForm (site : Site) (form : Code) (parts : List Code) :
    Orderly fun inner : Inner σ => Eval.defineForm site inner form parts := by
  unfold Eval.defineForm
  split
  · split
    · split
      · exact .fail _
      · exact (Orderly.inner _).bind fun v => (define site.frame _ v).bind fun _ => .pure v
    · exact complain _ _
  · exact complain _ _

/-- An import asks resolvers, and no question whether to go on. -/
theorem importModule (session : Nat) (name : String) :
    Orderly fun _ : Inner σ => Eval.importModule session name := by
  unfold Eval.importModule
  refine .bind_get fun m => ?_
  split
  · exact .pure _
  · dsimp only
    refine (Orderly.modify ?_).bind fun _ => ?_
    · refine .of_journal _ (fun _ => rfl) (fun _ => ?_) fun _ => rfl
      exact Imports.ask_events name (fun _ => rfl) (fun _ => rfl) _ _ _
    · split
      · exact .fail _
      · refine (settle session _).bind fun v => (Orderly.modify ?_).bind fun _ => .pure v
        exact .of_silent (fun _ => rfl) fun _ => rfl

theorem importNamed (site : Site) (v : Value) :
    Orderly fun _ : Inner σ => Eval.importNamed site v := by
  unfold Eval.importNamed
  split
  · exact importModule site.session _
  · exact .bind_get fun _ => .fail _

theorem importForm (site : Site) (form : Code) (parts : List Code) :
    Orderly fun inner : Inner σ => Eval.importForm site inner form parts := by
  unfold Eval.importForm
  split
  · split
    · exact (Orderly.inner _).bind fun v => importNamed site v
    · exact importModule site.session _
  · exact (Orderly.inner _).bind fun v => importNamed site v
  · exact complain _ _

theorem quoteForm (parts : List Code) : Orderly fun _ : Inner σ => Eval.quoteForm parts := by
  unfold Eval.quoteForm
  split
  · exact .bind_get fun _ => .pure _
  · exact .pure _

/-- The head, the operands, then the call. -/
theorem apply (hhost : host.Relays) (site : Site) (head : Code) (rest : List Code) :
    Orderly fun inner => Eval.apply host site inner head rest := by
  unfold Eval.apply
  refine (Orderly.inner head).bind fun h => (Orderly.collect rest).bind fun args => ?_
  refine .bind_get fun m => ?_
  cases h with
  | proc p => exact call hhost site (p.read m.cells) (Value.readAll m.cells args)
  | _ => exact settle site.session _

theorem wideLiteral (site : Site) (mark : Mark) (n : Int) :
    Orderly fun _ : Inner σ => Eval.wideLiteral site mark n := by
  unfold Eval.wideLiteral
  exact .bind_get fun _ => settle site.session _

/-- Every list, special form or not. -/
theorem evalList (hhost : host.Relays) (site : Site) (form : Code) (items : List Code) :
    Orderly fun inner => Eval.evalList host site inner form items := by
  unfold Eval.evalList
  split
  · exact settle site.session _
  · next head rest =>
    split
    · exact dotForm site form rest
    · exact ifForm form rest
    · exact defineForm site form rest
    · exact importForm site form rest
    · exact quoteForm rest
    · exact apply hhost site head rest

end Eval.Orderly

end LispShell
