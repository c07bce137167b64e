/-
Two runs side by side.

Take two machines that agree in what matters, and run the same program on
both. If every primitive of the evaluator answers the same on both sides
and leaves machines that agree again, then so does the whole run. What
"agree" means is a relation `R` between machines and differs from use to
use: the frames may be laid out differently, the log may differ, the one
run may find in its import table what the other has to ask for.

`Related R x y` says that two computations end alike from related
machines: both without an answer, or with the same answer and machines
that are related again. It is closed under everything the evaluator is
built from. `Simulation` lists what has to be shown about the primitives;
`Simulation.eval` gives the rest by induction on the depth, and
`Simulation.runForms` by induction on the forms of a text.

With the relation "equal, and `P` holds" a simulation is an invariant of
one run.
-/
import LispShell.Proofs.Frame
import LispShell.Proofs.Orderly

namespace LispShell

variable {σ α β : Type} {R : Machine σ → Machine σ → Prop}

/-- Two ends that are alike: no answer on either side, or the same one. -/
inductive Outcome.Alike (R : Machine σ → Machine σ → Prop) :
    Outcome σ α → Outcome σ α → Prop where
  | done (answer : Except Failure α) {m m' : Machine σ} (h : R m m') :
      Alike R (.done answer m) (.done answer m')
  | spent : Alike R .spent .spent

/-- Ends that are alike stay so if less is asked of the machines. -/
theorem Outcome.Alike.mono {S : Machine σ → Machine σ → Prop} {x y : Outcome σ α}
    (h : x.Alike R y) (hRS : ∀ {m m'}, R m m' → S m m') : x.Alike S y := by
  cases h with
  | done answer h => exact .done answer (hRS h)
  | spent => exact .spent

/-- The number of the next identity depends only on what was made and
stored. -/
theorem Machine.serial_congr {m m' : Machine σ} (session : Nat) (hmade : m'.made = m.made)
    (hcells : m'.cells = m.cells) : m'.serial session = m.serial session := by
  rw [serial, hmade, hcells, serial]

/-- Computations that end alike on related machines. -/
def Eval.Related (R : Machine σ → Machine σ → Prop) (x y : Eval σ α) : Prop :=
  ∀ m m', R m m' → (x m).Alike R (y m')

namespace Eval.Related

theorem pure (a : α) : Related R (Eval.pure a) (Eval.pure a) :=
  fun _ _ h => .done (.ok a) h

/-- Ending with a failure. -/
theorem fail (e : Failure) : Related R (Eval.fail e : Eval σ α) (Eval.fail e) :=
  fun _ _ h => .done (.error e) h

theorem spent : Related R (Eval.spent : Eval σ α) Eval.spent :=
  fun _ _ _ => .spent

theorem ofExcept (answer : Except Failure α) :
    Related R (Eval.ofExcept answer) (Eval.ofExcept answer) := by
  cases answer with
  | ok a => exact pure a
  | error e => exact fail e

theorem ofResult (r : Except Fault α) : Related R (Eval.ofResult r) (Eval.ofResult r) := by
  cases r with
  | ok a => exact pure a
  | error f => exact fail (.fault f)

theorem modify {f g : Machine σ → Machine σ} (h : ∀ m m', R m m' → R (f m) (g m')) :
    Related R (Eval.modify f) (Eval.modify g) :=
  fun m m' hm => .done (.ok ()) (h m m' hm)

/-- One thing after the other. The answers of the first are the same, so the
rest goes on alike. -/
theorem bind {x y : Eval σ α} {f g : α → Eval σ β} (hx : Related R x y)
    (hf : ∀ a, Related R (f a) (g a)) : Related R (Eval.bind x f) (Eval.bind y g) := by
  intro m m' hm
  have hend := hx m m' hm
  unfold Eval.bind
  generalize x m = first at hend ⊢
  generalize y m' = second at hend ⊢
  cases hend with
  | spent => exact .spent
  | done answer hm =>
    cases answer with
    | ok a => exact hf a _ _ hm
    | error e => exact .done (.error e) hm

theorem bind_get {f g : Machine σ → Eval σ α}
    (h : ∀ m m', R m m' → Related R (f m) (g m')) :
    Related R (Eval.bind get f) (Eval.bind get g) :=
  fun m m' hm => h m m' hm m m' hm

/-- Failures that are caught are the same ones. -/
theorem attempt {x y : Eval σ α} (h : Related R x y) :
    Related R (Eval.attempt x) (Eval.attempt y) := by
  intro m m' hm
  have hend := h m m' hm
  unfold Eval.attempt
  generalize x m = first at hend ⊢
  generalize y m' = second at hend ⊢
  cases hend with
  | spent => exact .spent
  | done answer hm => exact .done (.ok answer) hm

/-- Failures that are changed are changed in the same way. -/
theorem mapFailure (f : Failure → Failure) {x y : Eval σ α} (h : Related R x y) :
    Related R (Eval.mapFailure f x) (Eval.mapFailure f y) := by
  intro m m' hm
  have hend := h m m' hm
  unfold Eval.mapFailure
  generalize x m = first at hend ⊢
  generalize y m' = second at hend ⊢
  cases hend with
  | spent => exact .spent
  | done answer hm =>
    cases answer with
    | ok a => exact .done (.ok a) hm
    | error e => exact .done (.error (f e)) hm

/-- A row of computations, from left to right. -/
theorem collect {f g : α → Eval σ β} (h : ∀ a, Related R (f a) (g a)) (as : List α) :
    Related R (Eval.collect f as) (Eval.collect g as) := by
  induction as with
  | nil => exact pure []
  | cons a rest ih => exact (h a).bind fun b => ih.bind fun bs => pure (b :: bs)

-- ====================================================== questions, identities, imports

/-- Machines that were asked equally often give up at the same question. -/
theorem checkpoint (patience : Option Nat) (hqueries : ∀ {m m'}, R m m' → m'.queries = m.queries)
    (hasked : ∀ {m m'}, R m m' → R (asked m) (asked m')) :
    Related R (Eval.checkpoint patience) (Eval.checkpoint patience) := by
  intro m m' hm
  cases patience with
  | none => exact .done (.ok ()) (hasked hm)
  | some n =>
    by_cases hlt : m.queries < n
    · rw [checkpoint_of_lt hlt, checkpoint_of_lt (hqueries hm ▸ hlt)]
      exact .done _ (hasked hm)
    · have hle := Nat.not_lt.1 hlt
      rw [checkpoint_of_le hle, checkpoint_of_le (hqueries hm ▸ hle)]
      exact .done _ (hasked hm)

/-- Machines that made equally many identities and stored the same make the
same identity next. -/
theorem newMark {session : Nat} (hmade : ∀ {m m'}, R m m' → m'.made = m.made)
    (hcells : ∀ {m m'}, R m m' → m'.cells = m.cells)
    (hcount : ∀ {m m'} n, R m m' → R { m with made := n } { m' with made := n }) :
    Related R (Eval.newMark session) (Eval.newMark session) := by
  intro m m' hm
  unfold Eval.newMark
  rw [Machine.serial_congr session (hmade hm) (hcells hm), hmade hm]
  exact .done _ (hcount _ hm)

/-- A new value gets the same identity on both sides. -/
theorem settle {session : Nat} (hmark : Related R (Eval.newMark session) (Eval.newMark session))
    (v : Value) : Related R (Eval.settle session v) (Eval.settle session v) := by
  unfold Eval.settle
  split
  · exact hmark.bind fun mark => .pure _
  · exact .pure v

/-- Machines with the same import table and the same host ask the same
resolvers and hear the same. -/
theorem importModule {session : Nat} {name : String}
    (htable : ∀ {m m'}, R m m' → m'.imports = m.imports)
    (hhost : ∀ {m m'}, R m m' → m'.host = m.host)
    (hmark : Related R (Eval.newMark session) (Eval.newMark session))
    (hasked : ∀ {m m'} (state : σ) (events : List Event), R m m' →
      R { m with host := state, journal := events ++ m.journal }
        { m' with host := state, journal := events ++ m'.journal })
    (hremember : ∀ {m m'} (v : Value), R m m' →
      R { m with imports := m.imports.remember name v }
        { m' with imports := m'.imports.remember name v }) :
    Related R (Eval.importModule session name) (Eval.importModule session name) := by
  unfold Eval.importModule
  refine .bind_get fun m m' hm => ?_
  rw [htable hm, hhost hm]
  split
  · exact .pure _
  · refine (Related.modify fun _ _ hm => hasked _ _ hm).bind fun _ => ?_
    split
    · exact .fail _
    · refine (Related.settle hmark _).bind fun v => ?_
      exact (Related.modify fun _ _ hm => hremember v hm).bind fun _ => .pure v

end Eval.Related

-- ====================================================== what to show

/-- Two scripts that do the same on related machines and keep them
related. -/
inductive Script.Alike (R : Machine σ → Machine σ → Prop) : Script σ → Script σ → Prop where
  | finish (answer : Except Failure Value) : Alike R (.finish answer) (.finish answer)
  | eval (code : Code) {next next' : Except Failure Value → Script σ}
      (hnext : ∀ answer, Alike R (next answer) (next' answer)) :
      Alike R (.eval code next) (.eval code next')
  | get {next next' : σ → Cells → Script σ}
      (hnext : ∀ m m', R m m' → Alike R (next m.host m.cells) (next' m'.host m'.cells)) :
      Alike R (.get next) (.get next')
  | set {state state' : σ} {stored : Cells} {next next' : Script σ}
      (hset : ∀ m m', R m m' → R { m with host := state } { m' with host := state' })
      (hstore : Eval.Related R (Eval.store stored) (Eval.store stored))
      (hnext : Alike R next next') : Alike R (.set state stored next) (.set state' stored next')
  | lookup {frame : FrameId} {name : String} {next next' : Option Value → Script σ}
      (hfound : ∀ m m', R m m' → m'.frames.lookup frame name = m.frames.lookup frame name)
      (hnext : ∀ v, Alike R (next v) (next' v)) :
      Alike R (.lookup frame name next) (.lookup frame name next')
  | bind {frame : FrameId} {name : String} {value : Value} {next next' : Script σ}
      (hdefine : Eval.Related R (Eval.define frame name value) (Eval.define frame name value))
      (hnext : Alike R next next') :
      Alike R (.bind frame name value next) (.bind frame name value next')

/-- The primitives of two evaluations of the same code, one at each of two
sites, that keep machines related. -/
structure Simulation (host : Host σ) (site site' : Site) (R : Machine σ → Machine σ → Prop) :
    Prop where
  session : site'.session = site.session
  checkpoint : Eval.Related R (Eval.checkpoint site.patience) (Eval.checkpoint site'.patience)
  record : ∀ e, Eval.Related R (Eval.record e) (Eval.record e)
  cells : ∀ {m m'}, R m m' → m'.cells = m.cells
  store : ∀ stored, Eval.Related R (Eval.store stored) (Eval.store stored)
  made : ∀ {m m'}, R m m' → m'.made = m.made
  count : ∀ {m m'} n, R m m' → R { m with made := n } { m' with made := n }
  visible : ∀ {m m'}, R m m' → ∀ name,
    m'.frames.lookup site'.frame name = m.frames.lookup site.frame name
  define : ∀ name v,
    Eval.Related R (Eval.define site.frame name v) (Eval.define site'.frame name v)
  importModule : ∀ name,
    Eval.Related R (Eval.importModule site.session name) (Eval.importModule site.session name)
  found : ∀ {m m'}, R m m' → ∀ module name,
    host.member module name m'.host = host.member module name m.host
  listed : ∀ {m m'}, R m m' → ∀ module, host.listing module m'.host = host.listing module m.host
  call : ∀ p args, Script.Alike R (host.call p args) (host.call p args)
  invoke : ∀ module name args,
    Script.Alike R (host.invoke module name args) (host.invoke module name args)

namespace Simulation

open Eval

variable {host : Host σ} {site site' : Site} {inner inner' : Inner σ}

theorem settle (sim : Simulation host site site' R) (v : Value) :
    Related R (settle site.session v) (settle site'.session v) := by
  rw [sim.session]
  exact .settle (.newMark sim.made sim.cells sim.count) v

/-- Stamping a form, at either site. -/
theorem stamp (sim : Simulation host site site' R) (form : Form) :
    Related R (stamp site.session form) (stamp site'.session form) := by
  intro m m' hm
  unfold Eval.stamp
  rw [sim.session, Machine.serial_congr _ (sim.made hm) (sim.cells hm)]
  exact .done _ (sim.count _ hm)

-- ====================================================== procedures

/-- Scripts that do the same, given that code evaluated by them does. -/
theorem runScript (hinner : ∀ code, Related R (inner code) (inner' code))
    {script script' : Script σ} (h : Script.Alike R script script') :
    Related R (runScript inner script) (runScript inner' script') := by
  induction h with
  | finish answer => exact .ofExcept answer
  | eval code _ ih => exact (hinner code).attempt.bind ih
  | @get next next' _ ih =>
    show Related R (Eval.bind get fun m => Eval.runScript inner (next m.host m.cells))
      (Eval.bind get fun m => Eval.runScript inner' (next' m.host m.cells))
    exact .bind_get ih
  | set hset hstore _ ih => exact (Related.modify hset).bind fun _ => hstore.bind fun _ => ih
  | @lookup frame name next next' hfound _ ih =>
    show Related R (Eval.bind get fun m => Eval.runScript inner (next (m.frames.lookup frame name)))
      (Eval.bind get fun m => Eval.runScript inner' (next' (m.frames.lookup frame name)))
    refine .bind_get fun m m' hm => ?_
    rw [hfound m m' hm]
    exact ih _
  | bind hdefine _ ih => exact hdefine.bind fun _ => ih

/-- The branch that is picked depends on the arguments alone. -/
theorem condProcedure (hinner : ∀ code, Related R (inner code) (inner' code))
    (args : List Value) : Related R (condProcedure inner args) (condProcedure inner' args) := by
  unfold Eval.condProcedure
  refine (Related.ofResult _).bind fun _ => ?_
  dsimp only
  split
  · exact hinner _
  · exact .pure _

/-- What is visible is the same, so the listing is. -/
theorem dirProcedure (sim : Simulation host site site' R) (args : List Value) :
    Related R (dirProcedure host site args) (dirProcedure host site' args) := by
  unfold Eval.dirProcedure
  refine (Related.ofResult _).bind fun _ => .bind_get fun m m' hm => ?_
  split
  · rw [Frames.symbols_eq_of_lookup (sim.visible hm)]
    exact .pure _
  · exact .pure _
  · rw [sim.listed hm]
    exact .pure _
  · exact .fail _

/-- The standard procedures. -/
theorem applyStandard (sim : Simulation host site site' R)
    (hinner : ∀ code, Related R (inner code) (inner' code)) (args : List Value) (p : Standard) :
    Related R (applyStandard host site inner args p) (applyStandard host site' inner' args p) := by
  cases p with
  | print => exact (sim.record _).bind fun _ => .pure _
  | list => exact .pure _
  | cond => exact condProcedure hinner args
  | dir => exact sim.dirProcedure args
  | _ => exact .ofResult _

theorem conclude (sim : Simulation host site site' R) (c : Called) :
    Related R (conclude c) (conclude c) :=
  (sim.store c.stored).bind fun _ => .ofExcept c.answer

/-- All procedures. -/
theorem applyProc (sim : Simulation host site site' R)
    (hinner : ∀ code, Related R (inner code) (inner' code)) (args : List Value) (p : Proc) :
    Related R (applyProc host site inner args p) (applyProc host site' inner' args p) := by
  cases p with
  | standard p => exact sim.applyStandard hinner args p
  | host p => exact runScript hinner (sim.call p args)
  | machine module name => exact runScript hinner (sim.invoke module name args)
  | method receiver name => exact sim.conclude _
  | function name key => exact sim.conclude _

/-- A call: the record of it, the procedure, the identity of its result. -/
theorem callProc (sim : Simulation host site site' R)
    (hinner : ∀ code, Related R (inner code) (inner' code)) (p : Proc) (args : List Value) :
    Related R (Eval.call host site inner p args) (Eval.call host site' inner' p args) := by
  unfold Eval.call
  refine (sim.record _).bind fun _ => ?_
  exact ((sim.applyProc hinner args p).mapFailure _).bind fun v => sim.settle v

/-- The member of a value. -/
theorem member (sim : Simulation host site site' R) (v : Value) (name : String) :
    Related R (member host site v name) (member host site' v name) := by
  unfold Eval.member
  refine .bind_get fun m m' hm => ?_
  dsimp only
  split
  · rw [sim.found hm]
    exact (Related.ofExcept _).bind fun found => sim.settle found
  · exact (Related.ofResult _).bind fun found => sim.settle found

-- ====================================================== special forms

/-- A complaint quotes its form as it reads, which is the same on both
sides. -/
theorem complain (sim : Simulation host site site' R) (f : String → Fault) (code : Code) :
    Related R (complain f code : Eval σ Value) (complain f code) := by
  unfold Eval.complain
  refine .bind_get fun m m' hm => ?_
  rw [sim.cells hm]
  exact .fail _

/-- A symbol is bound to the same value on both sides. -/
theorem lookup (sim : Simulation host site site' R) (name : String) :
    Related R (lookup site name) (lookup site' name) := by
  unfold Eval.lookup
  split
  · exact .pure _
  · refine .bind_get fun m m' hm => ?_
    rw [sim.visible hm]
    split
    · exact .pure _
    · exact .fail _

/-- Taking a member. -/
theorem dotForm (sim : Simulation host site site' R)
    (hinner : ∀ code, Related R (inner code) (inner' code)) (form : Code) (parts : List Code) :
    Related R (dotForm host site inner form parts) (dotForm host site' inner' form parts) := by
  unfold Eval.dotForm
  split
  · exact (hinner _).bind fun v => sim.member v _
  · exact sim.complain _ _
  · exact sim.complain _ _

/-- A test reads the same on both sides. -/
theorem holds (sim : Simulation host site site' R)
    (hinner : ∀ code, Related R (inner code) (inner' code)) (test : Code) :
    Related R (holds inner test) (holds inner' test) := by
  unfold Eval.holds
  refine (hinner test).bind fun v => .bind_get fun m m' hm => ?_
  rw [sim.cells hm]
  exact .pure _

/-- The test, then the same branch. -/
theorem ifForm (sim : Simulation host site site' R)
    (hinner : ∀ code, Related R (inner code) (inner' code)) (form : Code) (parts : List Code) :
    Related R (ifForm inner form parts) (ifForm inner' form parts) := by
  unfold Eval.ifForm
  split
  · refine (sim.holds hinner _).bind fun b => ?_
    cases b with
    | true => exact hinner _
    | false => exact .pure _
  · refine (sim.holds hinner _).bind fun b => ?_
    cases b with
    | true => exact hinner _
    | false => exact hinner _
  · exact sim.complain _ _

/-- A definition, each side in its own frame. -/
theorem defineForm (sim : Simulation host site site' R)
    (hinner : ∀ code, Related R (inner code) (inner' code)) (form : Code) (parts : List Code) :
    Related R (defineForm site inner form parts) (defineForm site' inner' form parts) := by
  unfold Eval.defineForm
  split
  · split
    · split
      · exact .fail _
      · exact (hinner _).bind fun v => (sim.define _ v).bind fun _ => .pure v
    · exact sim.complain _ _
  · exact sim.complain _ _

/-- Importing what a value names. -/
theorem importNamed (sim : Simulation host site site' R) (v : Value) :
    Related R (importNamed site v) (importNamed site' v) := by
  unfold Eval.importNamed
  rw [sim.session]
  split
  · exact sim.importModule _
  · refine .bind_get fun m m' hm => ?_
    rw [sim.cells hm]
    exact .fail _

/-- An import. -/
theorem importForm (sim : Simulation host site site' R)
    (hinner : ∀ code, Related R (inner code) (inner' code)) (form : Code) (parts : List Code) :
    Related R (importForm site inner form parts) (importForm site' inner' form parts) := by
  unfold Eval.importForm
  rw [sim.session]
  split
  · split
    · exact (hinner _).bind fun v => sim.importNamed v
    · exact sim.importModule _
  · exact (hinner _).bind fun v => sim.importNamed v
  · exact sim.complain _ _

/-- A quoted form reads the same on both sides. -/
theorem quoteForm (sim : Simulation host site site' R) (parts : List Code) :
    Related R (quoteForm parts : Eval σ Value) (quoteForm parts) := by
  unfold Eval.quoteForm
  split
  · refine .bind_get fun m m' hm => ?_
    rw [sim.cells hm]
    exact .pure _
  · exact .pure _

/-- The head, the operands, then a call or a sequence. -/
theorem apply (sim : Simulation host site site' R)
    (hinner : ∀ code, Related R (inner code) (inner' code)) (head : Code) (rest : List Code) :
    Related R (apply host site inner head rest) (apply host site' inner' head rest) := by
  unfold Eval.apply
  refine (hinner head).bind fun h => (Related.collect hinner rest).bind fun args => ?_
  refine .bind_get fun m m' hm => ?_
  rw [sim.cells hm]
  cases h with
  | proc p => exact sim.callProc hinner (p.read m.cells) (Value.readAll m.cells args)
  | _ => exact sim.settle _

/-- A list, special form or not. -/
theorem evalList (sim : Simulation host site site' R)
    (hinner : ∀ code, Related R (inner code) (inner' code)) (form : Code) (items : List Code) :
    Related R (evalList host site inner form items) (evalList host site' inner' form items) := by
  unfold Eval.evalList
  split
  · exact sim.settle _
  · next head rest =>
    split
    · exact sim.dotForm hinner form rest
    · exact sim.ifForm hinner form rest
    · exact sim.defineForm hinner form rest
    · exact sim.importForm hinner form rest
    · exact sim.quoteForm rest
    · exact sim.apply hinner head rest

/-- A wide literal holds the same on both sides. -/
theorem wideLiteral (sim : Simulation host site site' R) (mark : Mark) (n : Int) :
    Related R (wideLiteral site mark n) (wideLiteral site' mark n) := by
  unfold Eval.wideLiteral
  refine .bind_get fun m m' hm => ?_
  rw [sim.cells hm]
  exact sim.settle _

/-- One expression, given how those inside it are evaluated. -/
theorem step (sim : Simulation host site site' R)
    (hinner : ∀ code, Related R (inner code) (inner' code)) (code : Code) :
    Related R (step host site inner code) (step host site' inner' code) := by
  unfold Eval.step
  refine sim.checkpoint.bind fun _ => ?_
  cases code with
  | symbol name => exact sim.lookup name
  | list mark items => exact sim.evalList hinner _ items
  | wide mark n => exact sim.wideLiteral mark n
  | _ => exact .pure _

/-- Evaluating an expression, however deep, keeps machines related. -/
theorem eval (sim : Simulation host site site' R) (depth : Nat) (code : Code) :
    Related R (eval host site depth code) (eval host site' depth code) := by
  induction depth generalizing code with
  | zero => exact .spent
  | succ depth ih => exact sim.step ih code

-- ====================================================== texts

variable {depth : Nat}

theorem evalForm (sim : Simulation host site site' R) (form : Form) :
    Related R (Interpreter.evalForm ⟨host, site, depth⟩ form)
      (Interpreter.evalForm ⟨host, site', depth⟩ form) :=
  (sim.stamp form).bind fun code => sim.eval depth code

/-- Forms up to the first failure. -/
theorem evalForms (sim : Simulation host site site' R) (v : Value) (forms : List Form) :
    Related R (Interpreter.evalForms ⟨host, site, depth⟩ v forms)
      (Interpreter.evalForms ⟨host, site', depth⟩ v forms) := by
  induction forms generalizing v with
  | nil => exact .pure v
  | cons form rest ih => exact (sim.evalForm form).bind fun v => ih v

/-- A whole text. -/
theorem evalSource (sim : Simulation host site site' R) (source : String) :
    Related R (Interpreter.evalSource ⟨host, site, depth⟩ source)
      (Interpreter.evalSource ⟨host, site', depth⟩ source) := by
  unfold Interpreter.evalSource
  split
  · exact .fail _
  · exact sim.evalForms _ _

/-- A form as it was read. -/
theorem evalRead (sim : Simulation host site site' R) (form : Except Fault Form) :
    Related R (Interpreter.evalRead ⟨host, site, depth⟩ form)
      (Interpreter.evalRead ⟨host, site', depth⟩ form) := by
  cases form with
  | error f => exact .fail _
  | ok form => exact sim.evalForm form

/-- The forms may be counted from different numbers if the log is not
looked at. -/
theorem runForms (sim : Simulation host site site' R)
    (hlog : ∀ entry entry', Related R (Eval.record (.logged entry)) (Eval.record (.logged entry')))
    {report : Except Failure Value → Eval σ Unit}
    (hreport : ∀ outcome, Related R (report outcome) (report outcome)) (index index' : Nat)
    (forms : List (Except Fault Form)) :
    Related R (Interpreter.runForms ⟨host, site, depth⟩ report index forms)
      (Interpreter.runForms ⟨host, site', depth⟩ report index' forms) := by
  induction forms generalizing index index' with
  | nil => exact .pure []
  | cons form rest ih =>
    unfold Interpreter.runForms
    refine (sim.evalRead form).attempt.bind fun outcome => ?_
    have hfurther : Related R
        (Eval.bind (Interpreter.runForms ⟨host, site, depth⟩ report (index + 1) rest)
          fun further => Eval.pure (outcome :: further))
        (Eval.bind (Interpreter.runForms ⟨host, site', depth⟩ report (index' + 1) rest)
          fun further => Eval.pure (outcome :: further)) :=
      (ih (index + 1) (index' + 1)).bind fun further => .pure _
    cases outcome with
    | ok v => exact (hreport (.ok v)).bind fun _ => hfurther
    | error e =>
      refine (hlog _ _).bind fun _ => (hreport (.error e)).bind fun _ => ?_
      refine sim.checkpoint.attempt.bind fun answer => ?_
      cases answer with
      | error e' => exact .pure _
      | ok _ => exact hfurther

/-- The forms of a text, whatever is reported of them. -/
theorem runSource (sim : Simulation host site site' R)
    (hlog : ∀ entry entry', Related R (Eval.record (.logged entry)) (Eval.record (.logged entry')))
    {report : Except Failure Value → Eval σ Unit}
    (hreport : ∀ outcome, Related R (report outcome) (report outcome)) (source : String) :
    Related R (Interpreter.runSource ⟨host, site, depth⟩ report source)
      (Interpreter.runSource ⟨host, site', depth⟩ report source) := by
  unfold Interpreter.runSource
  split
  · exact (hreport _).bind fun _ => .pure _
  · exact sim.runForms hlog hreport 0 0 _

/-- A program. -/
theorem program (sim : Simulation host site site' R)
    (hlog : ∀ entry entry', Related R (Eval.record (.logged entry)) (Eval.record (.logged entry')))
    (source : String) :
    Related R (Interpreter.program ⟨host, site, depth⟩ source)
      (Interpreter.program ⟨host, site', depth⟩ source) :=
  sim.runSource hlog (fun _ => .pure ()) source

/-- A file that is loaded. -/
theorem loadFile (sim : Simulation host site site' R) (name : String)
    (content : Except Failure String) :
    Related R (Interpreter.loadFile ⟨host, site, depth⟩ name content)
      (Interpreter.loadFile ⟨host, site', depth⟩ name content) := by
  refine .mapFailure _ ((Related.ofExcept content).bind fun source => ?_)
  exact (sim.evalSource source).bind fun _ => .pure ()

end Simulation

end LispShell
