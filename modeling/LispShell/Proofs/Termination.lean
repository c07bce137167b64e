/-
Only a procedure that evaluates code can keep an evaluation from ending.

A special form and a call evaluate parts of the expression they are
written as, and these are smaller. What is not a part of it is evaluated
only by a procedure that does so: `cond`, which evaluates the branch it
picks, or one of the host (`Proc.Evaluates`). Procedures are values, can be
bound, listed, quoted around and fetched as members, so what has to be
shown is that where none of these can be reached, none comes within reach
(`Machine.Inert`). That includes what resolvers supply and what procedures,
methods and modules of the host hand out (`Host.Inert`).

# How often

Each evaluation of an expression asks once whether to go on, so without
such procedures an evaluation asks at most once for each node. `Frugal`
says this of a computation, together with all that has to hold between two
computations for it to compose: it ends, on an inert machine, with an inert
value, after at most `n` questions; and another computation does the same
if its limit gives the same answers to these. So it does not matter how
deep the evaluator may go, if it is at least as deep as the expression is
large, and a limit that is not reached is like none.
-/
import LispShell.Proofs.Derivation
import LispShell.Proofs.Integers

namespace LispShell

variable {σ α β : Type}

-- ====================================================== size

namespace Expr

variable {μ : Type}

mutual

/-- The number of nodes of an expression. -/
def size : Expr μ → Nat
  | .list _ items => sizeAll items + 1
  | _ => 1

/-- The number of nodes of some expressions. -/
def sizeAll : List (Expr μ) → Nat
  | [] => 0
  | code :: rest => size code + sizeAll rest

end

end Expr

-- ====================================================== what evaluates nothing

/-- A script that evaluates nothing, whatever it finds. -/
inductive Script.Passive : Script σ → Prop where
  | finish (answer : Except Failure Value) : Passive (.finish answer)
  | get {next : σ → Cells → Script σ} (h : ∀ state cells, Passive (next state cells)) :
      Passive (.get next)
  | set (state : σ) (stored : Cells) {next : Script σ} (h : Passive next) :
      Passive (.set state stored next)
  | lookup (frame : FrameId) (name : String) {next : Option Value → Script σ}
      (h : ∀ found, Passive (next found)) : Passive (.lookup frame name next)
  | bind (frame : FrameId) (name : String) (value : Value) {next : Script σ} (h : Passive next) :
      Passive (.bind frame name value next)

/-- A procedure that can evaluate code: `cond`, or one of the host whose
script does. -/
def Proc.Evaluates (host : Host σ) : Proc → Prop
  | .standard p => p = .cond
  | .host p => ∃ args, ¬(host.call p args).Passive
  | .machine module name => ∃ args, ¬(host.invoke module name args).Passive
  | .method .. | .function .. => False

/-- No procedure that evaluates code occurs in a value. -/
def Value.Inert (host : Host σ) (v : Value) : Prop :=
  ∀ p, Part (.proc p) v → ¬p.Evaluates host

namespace Value.Inert

variable {host : Host σ}

/-- What occurs in an inert value is inert. -/
theorem part {v w : Value} (h : v.Inert host) (hw : Part w v) : w.Inert host :=
  fun p hp => h p (hp.trans hw)

/-- A value without parts is inert. -/
theorem plain {v : Value} (h : v.Plain) : v.Inert host := by
  intro p hp
  cases h with
  | object hbare =>
    cases hp with
    | entry he => cases hbare <;> cases he
    | field hf => cases hbare <;> cases hf
  | _ => cases hp

/-- A wide integer is inert. -/
theorem wide (mark : Mark) (n : Int) : (Value.wide mark n).Inert host := by
  intro p hp
  cases hp

theorem ofInt (n : Int) : (Value.ofInt n).Inert host := by
  unfold Value.ofInt
  split
  · exact plain (.int _)
  · exact wide _ n

/-- A sequence is inert if its items are. -/
theorem sequence_iff {mark : Mark} {items : List Value} :
    (Value.sequence mark items).Inert host ↔ ∀ v ∈ items, v.Inert host := by
  refine ⟨fun h v hv => h.part (.item hv .self), fun h p hp => ?_⟩
  cases hp with
  | item hv hp => exact h _ hv p hp

/-- A library is inert if its members are. -/
theorem library_iff {mark : Mark} {name : String} {members : List (String × Value)} :
    (Value.library mark name members).Inert host ↔ ∀ entry ∈ members, entry.2.Inert host := by
  refine ⟨fun h entry hentry => h.part (.member hentry .self), fun h p hp => ?_⟩
  cases hp with
  | member hentry hp => exact h _ hentry p hp

/-- A method evaluates nothing by itself, so its receiver decides. -/
theorem method {v : Value} (h : v.Inert host) (name : String) :
    (Value.proc (.method v name)).Inert host := by
  intro p hp
  cases hp with
  | self => exact id
  | receiver hp => exact h p hp

/-- Any other procedure decides for itself. -/
theorem proc {p : Proc} (hmethod : ∀ v name, p ≠ .method v name) (h : ¬p.Evaluates host) :
    (Value.proc p).Inert host := by
  intro q hq
  cases hq with
  | self => exact h
  | receiver _ => exact absurd rfl (hmethod _ _)

/-- What is fetched from an inert value is inert. -/
theorem fetched {v w : Value} (h : v.Inert host) (hw : Fetched v w) : w.Inert host := by
  cases hw with
  | part hw => exact h.part hw
  | method name => exact h.method name
  | integer => exact wide _ _

/-- The identity of a value is nothing that evaluates code. -/
theorem identify {v : Value} (h : v.Inert host) (mark : Mark) : (v.identify mark).Inert host := by
  unfold Value.identify
  split
  · exact wide _ _
  · exact sequence_iff.2 (sequence_iff.1 h)
  · exact library_iff.2 (library_iff.1 h)
  · exact plain (.object (.bytes _ _))
  · exact h

/-- A procedure evaluates code whatever its receiver holds. -/
theorem evaluates_read (cells : Cells) (p : Proc) :
    (p.read cells).Evaluates host ↔ p.Evaluates host := by
  cases p <;> exact Iff.rfl

/-- Nor is what it holds now. -/
theorem read {v : Value} (h : v.Inert host) (cells : Cells) : (v.read cells).Inert host := by
  intro p hp
  obtain ⟨u, hu, hread⟩ := hp.of_read
  cases u with
  | proc q =>
    cases hread
    exact fun heval => h q hu ((evaluates_read cells q).1 heval)
  | _ => cases hread

/-- What the arguments of a call hold now. -/
theorem readAll {args : List Value} (h : ∀ v ∈ args, v.Inert host) (cells : Cells) :
    ∀ v ∈ Value.readAll cells args, v.Inert host := by
  intro v hv
  rw [Value.readAll_eq_map] at hv
  obtain ⟨w, hw, rfl⟩ := List.mem_map.1 hv
  exact (h w hw).read cells

end Value.Inert

/-- What occurs in an expression is an expression. -/
theorem Value.Part.ofCode {w : Value} {c : Code} (h : Part w (.ofCode c)) : ∃ d, w = .ofCode d := by
  generalize hv : Value.ofCode c = v at h
  induction h generalizing c with
  | self => exact ⟨c, hv.symm⟩
  | code _ _ ih => exact ih rfl
  | item | member | receiver | entry | field => cases c <;> cases hv

/-- A quoted expression is inert, whatever it says. -/
theorem Value.Inert.ofCode (host : Host σ) (c : Code) : (Value.ofCode c).Inert host := by
  intro p hp
  obtain ⟨d, hd⟩ := hp.ofCode
  cases d <;> cases hd

-- ====================================================== inert machines

/-- No procedure that evaluates code can be reached: none occurs in what is
bound, in what was imported or in what a resolver answers. -/
structure Machine.Inert (host : Host σ) (ok : σ → Prop) (m : Machine σ) : Prop where
  frames : m.frames.All (Value.Inert host)
  imported : ∀ entry ∈ m.imports.imported, entry.2.Inert host
  resolvers : ∀ r ∈ m.imports.resolvers, ∀ name state, ok state →
    ok (r name state).state ∧ ∀ v, (r name state).answer = .ok v → v.Inert host
  state : ok m.host

/-- Everything there is is inert. -/
def Terms.inert (host : Host σ) (ok : σ → Prop) : Terms σ where
  machine := Machine.Inert host ok
  value := Value.Inert host
  code _ := True
  failure _ := True
  event _ := True

/-- A host that hands out nothing that evaluates code, if it is given
nothing that does. Procedures that evaluate code themselves may hand out
anything. -/
structure Host.Inert (ok : σ → Prop) (host : Host σ) : Prop where
  call : ∀ p args, ¬(Proc.host p).Evaluates host → (∀ v ∈ args, v.Inert host) →
    (host.call p args).Keeps (Terms.inert host ok)
  invoke : ∀ module name args, ¬(Proc.machine module name).Evaluates host →
    (∀ v ∈ args, v.Inert host) → (host.invoke module name args).Keeps (Terms.inert host ok)
  member : ∀ module name state, ok state →
    (Terms.inert host ok).answer (Value.Inert host) (host.member module name state)
  method : ∀ d name args, (Value.object d).Inert host → (∀ v ∈ args, v.Inert host) →
    (Terms.inert host ok).called (Eval.callMethod name (host.method? d name) args)
  function : ∀ name key args, (∀ v ∈ args, v.Inert host) →
    (Terms.inert host ok).called (Eval.callMethod name (host.function? key) args)

-- ====================================================== frugal computations

/-- Two limits that give the same answers, from one number of questions to
another. -/
def AnswerAlike (p p' : Option Nat) (first last : Nat) : Prop :=
  ∀ q, first ≤ q → q < last → ((∀ n, p = some n → q < n) ↔ ∀ n, p' = some n → q < n)

/-- Limits that answer alike do so to fewer questions. -/
theorem AnswerAlike.mono {p p' : Option Nat} {first first' last last' : Nat}
    (h : AnswerAlike p p' first last) (hfirst : first ≤ first') (hlast : last' ≤ last) :
    AnswerAlike p p' first' last' :=
  fun q hq hlt => h q (hfirst.trans hq) (hlt.trans_le hlast)

namespace Eval

/-- How a computation ends within `n` questions, and with it another one
whose limit answers these alike. -/
structure Ends (good : Machine σ → Prop) (p p' : Option Nat) (n : Nat) (x y : Eval σ α)
    (post : α → Prop) (m : Machine σ) (answer : Except Failure α) (m' : Machine σ) : Prop where
  run : x m = .done answer m'
  good : good m'
  value : ∀ a, answer = .ok a → post a
  later : m.queries ≤ m'.queries
  bound : m'.queries ≤ m.queries + n
  alike : AnswerAlike p p' m.queries (m.queries + n) → y m = .done answer m'

/-- A computation that ends on every good machine within `n` questions. -/
def Frugal (good : Machine σ → Prop) (p p' : Option Nat) (n : Nat) (x y : Eval σ α)
    (post : α → Prop) : Prop :=
  ∀ m, good m → ∃ answer m', Ends good p p' n x y post m answer m'

namespace Frugal

variable {good : Machine σ → Prop} {p p' : Option Nat} {n n₁ n₂ : Nat} {x y : Eval σ α}
  {post : α → Prop}

/-- More questions may be allowed. -/
theorem mono (h : Frugal good p p' n₁ x y post) (hle : n₁ ≤ n) : Frugal good p p' n x y post := by
  intro m hm
  obtain ⟨answer, m', hend⟩ := h m hm
  refine ⟨answer, m', { hend with bound := ?_, alike := fun halike => ?_ }⟩
  · exact hend.bound.trans (Nat.add_le_add_left hle _)
  · exact hend.alike (halike.mono le_rfl (Nat.add_le_add_left hle _))

/-- A computation that asks nothing and does not depend on the limit. -/
theorem quiet (h : ∀ m, good m → ∃ answer m', x m = .done answer m' ∧ good m'
    ∧ m'.queries = m.queries ∧ ∀ a, answer = .ok a → post a) : Frugal good p p' n x x post := by
  intro m hm
  obtain ⟨answer, m', hrun, hm', hqueries, hvalue⟩ := h m hm
  exact ⟨answer, m', hrun, hm', hvalue, hqueries.ge, hqueries.le.trans (Nat.le_add_right _ _),
    fun _ => hrun⟩

theorem pure {a : α} (h : post a) : Frugal good p p' n (Eval.pure a) (Eval.pure a) post :=
  quiet fun m hm => ⟨.ok a, m, rfl, hm, rfl, fun _ ha => Except.ok.inj ha ▸ h⟩

/-- Ending with a failure. -/
theorem fail (e : Failure) :
    Frugal good p p' n (Eval.fail e : Eval σ α) (Eval.fail e) post :=
  quiet fun m hm => ⟨.error e, m, rfl, hm, rfl, nofun⟩

theorem ofExcept {answer : Except Failure α} (h : ∀ a, answer = .ok a → post a) :
    Frugal good p p' n (Eval.ofExcept answer) (Eval.ofExcept answer) post := by
  cases answer with
  | ok a => exact pure (h a rfl)
  | error e => exact fail e

theorem ofResult {r : Except Fault α} (h : Gives post r) :
    Frugal good p p' n (Eval.ofResult r) (Eval.ofResult r) post := by
  cases r with
  | ok a => exact pure (h a rfl)
  | error f => exact fail _

theorem checked (r : Except Fault α) :
    Frugal good p p' n (Eval.ofResult r) (Eval.ofResult r) fun _ => True :=
  ofResult fun _ _ => trivial

theorem modify {f : Machine σ → Machine σ} (hgood : ∀ m, good m → good (f m))
    (hqueries : ∀ m, (f m).queries = m.queries) :
    Frugal good p p' n (Eval.modify f) (Eval.modify f) fun _ => True :=
  quiet fun m hm => ⟨.ok (), f m, rfl, hgood m hm, hqueries m, fun _ _ => trivial⟩

/-- Questions add up. -/
theorem bind {mid : α → Prop} {post : β → Prop} {f g : α → Eval σ β}
    (hx : Frugal good p p' n₁ x y mid) (hf : ∀ a, mid a → Frugal good p p' n₂ (f a) (g a) post)
    (hle : n₁ + n₂ ≤ n) : Frugal good p p' n (Eval.bind x f) (Eval.bind y g) post := by
  intro m hm
  obtain ⟨answer, m₁, hfirst⟩ := hx m hm
  have hearlier := hfirst.bound
  cases answer with
  | error e =>
    refine ⟨.error e, m₁, bind_failed hfirst.run, hfirst.good, nofun,
      hfirst.later, by omega, fun halike => ?_⟩
    exact bind_failed (hfirst.alike (halike.mono le_rfl (by omega)))
  | ok a =>
    obtain ⟨answer, m', hsecond⟩ := hf a (hfirst.value a rfl) m₁ hfirst.good
    have hlater := hsecond.bound
    refine ⟨answer, m', (bind_done hfirst.run).trans hsecond.run, hsecond.good, hsecond.value,
      hfirst.later.trans hsecond.later, by omega, fun halike => ?_⟩
    have hleft := hfirst.alike (halike.mono le_rfl (by omega))
    have hright := hsecond.alike (halike.mono hfirst.later (by omega))
    exact (bind_done hleft).trans hright

/-- Looking at the machine and going on. -/
theorem bind_get {f g : Machine σ → Eval σ α}
    (hf : ∀ m, good m → Frugal good p p' n (f m) (g m) post) :
    Frugal good p p' n (Eval.bind get f) (Eval.bind get g) post := by
  intro m hm
  obtain ⟨answer, m', hend⟩ := hf m hm m hm
  exact ⟨answer, m', { hend with run := hend.run, alike := hend.alike }⟩

/-- Changing a failure. -/
theorem mapFailure (f : Failure → Failure) (h : Frugal good p p' n x y post) :
    Frugal good p p' n (Eval.mapFailure f x) (Eval.mapFailure f y) post := by
  intro m hm
  obtain ⟨answer, m', hend⟩ := h m hm
  cases answer with
  | ok a =>
    exact ⟨.ok a, m', { hend with
      run := mapFailure_done hend.run
      alike := fun halike => mapFailure_done (hend.alike halike) }⟩
  | error e =>
    exact ⟨.error (f e), m', { hend with
      run := mapFailure_failed hend.run
      value := nofun
      alike := fun halike => mapFailure_failed (hend.alike halike) }⟩

/-- A question. -/
theorem checkpoint (site : Site) (hgood : ∀ m, good m → good (asked m)) :
    Frugal good site.patience p' 1 (Eval.checkpoint site.patience) (Eval.checkpoint p')
      fun _ => True := by
  intro m hm
  have hsame : AnswerAlike site.patience p' m.queries (m.queries + 1) →
      (site.allows m ↔ { site with patience := p' }.allows m) := fun halike =>
    halike m.queries le_rfl (Nat.lt_succ_self _)
  by_cases hasked : site.allows m
  · refine ⟨.ok (), asked m, checkpoint_of_allows hasked, hgood m hm, fun _ _ => trivial,
      Nat.le_succ _, le_rfl, fun halike => ?_⟩
    exact checkpoint_of_allows ((hsame halike).1 hasked)
  · refine ⟨.error .canceled, asked m, checkpoint_of_not_allows hasked, hgood m hm, nofun,
      Nat.le_succ _, le_rfl, fun halike => ?_⟩
    exact checkpoint_of_not_allows (mt (hsame halike).2 hasked)

end Frugal

end Eval

-- ====================================================== machines that stay inert

namespace Machine.Inert

variable {host : Host σ} {ok : σ → Prop} {m : Machine σ}

/-- What is counted, stored in place and noted plays no part. -/
theorem counting (h : m.Inert host ok) (cells : Cells) (made queries : Nat)
    (journal : List Event) :
    ({ m with cells, made, queries, journal } : Machine σ).Inert host ok :=
  { h with }

/-- A machine stays inert if something inert is bound. -/
theorem binding (h : m.Inert host ok) {v : Value} (hv : v.Inert host) (frame : FrameId)
    (name : String) : (m.binding frame name v).Inert host ok :=
  { h with frames := h.frames.bind hv frame name }

end Machine.Inert

-- ====================================================== procedures

namespace Eval

variable {host : Host σ} {ok : σ → Prop} {site : Site} {p' : Option Nat} {inner inner' : Inner σ}
  {n : Nat}

/-- A computation that ends on inert machines within `n` questions. -/
abbrev FrugalAt (host : Host σ) (ok : σ → Prop) (site : Site) (p' : Option Nat) (n : Nat)
    (x y : Eval σ α) (post : α → Prop) : Prop :=
  Frugal (Machine.Inert host ok) site.patience p' n x y post

/-- How expressions up to a size are evaluated, on both sides. -/
def FrugalUpTo (host : Host σ) (ok : σ → Prop) (site : Site) (p' : Option Nat) (largest : Nat)
    (inner inner' : Inner σ) : Prop :=
  ∀ code : Code, code.size ≤ largest →
    FrugalAt host ok site p' code.size (inner code) (inner' code) (Value.Inert host)

/-- What holds up to a size holds up to a smaller one. -/
theorem FrugalUpTo.mono {largest largest' : Nat}
    (h : FrugalUpTo host ok site p' largest inner inner') (hle : largest' ≤ largest) :
    FrugalUpTo host ok site p' largest' inner inner' :=
  fun code hcode => h code (hcode.trans hle)

end Eval

-- ====================================================== the platform

namespace Platform

end Platform

end LispShell
