/-
Values have their identity.

A sequence or a library is made without an identity and gets one where it
leaves the procedure, the object or the module it comes from. Hence what
an expression evaluates to has its identity (`Value.Settled`), provided
that what is bound and imported has (`Machine.Identified`), for nothing
else can bring a value into an evaluation. `Visit.Settles` says this of
one visit: a visit settles if the visits inside it do (`Step.settles`).

A procedure of the host may bind a value itself. `Host.Settles` says that
such a value has its identity if those that the procedure was given have
theirs.
-/
import LispShell.Proofs.Integers
import LispShell.Proofs.Writes

namespace LispShell

variable {σ : Type}

-- ====================================================== settled values

namespace Value

/-- Code as a value has no identity of its own to get. -/
theorem settled_ofCode (code : Code) : (ofCode code).Settled := by
  intro mark
  cases code <;> rfl

/-- Neither has a constant. -/
theorem settled_constant {code : Code} {v : Value} (h : code.constant? = some v) : v.Settled := by
  cases code with
  | symbol | list | wide => cases h
  | _ =>
    cases h
    intro mark
    rfl

/-- Nor has what is quoted. -/
theorem settled_quoted (cells : Cells) (parts : List Code) : (quoted cells parts).Settled := by
  unfold quoted
  split
  · exact settled_ofCode _
  · intro mark
    rfl

/-- Reading a value gives it no identity. -/
theorem isNew_read (cells : Cells) (v : Value) : (v.read cells).isNew = v.isNew := by
  cases v with
  | wide mark n => cases mark <;> rfl
  | sequence mark items => cases mark <;> rfl
  | library mark name members => cases mark <;> rfl
  | object d =>
    cases d with
    | bytes mark row => cases mark <;> rfl
    | _ => rfl
  | _ => rfl

/-- Nor does it take one away. -/
theorem Settled.read {v : Value} (h : v.Settled) (cells : Cells) : (v.read cells).Settled :=
  identify_of_not_isNew ((isNew_read cells v).trans h.isNew_eq_false)

end Value

/-- Everything that is bound or imported has its identity. -/
structure Machine.Identified (m : Machine σ) : Prop where
  frames : m.frames.All Value.Settled
  imports : ∀ entry ∈ m.imports.imported, entry.2.Settled

namespace Machine.Identified

variable {m m' : Machine σ}

/-- Only what is bound and imported matters. -/
theorem congr (h : m.Identified)
    (hsame : m'.frames = m.frames ∧ m'.imports = m.imports) : m'.Identified := by
  refine ⟨?_, ?_⟩
  · rw [hsame.1]
    exact h.frames
  · rw [hsame.2]
    exact h.imports

/-- Another value may get its identity. -/
theorem settling (h : m.Identified) (v : Value) : (m.settling v).Identified :=
  h.congr ⟨m.frames_settling v, m.imports_settling v⟩

/-- Something may be stored. -/
theorem storing (h : m.Identified) (stored : Cells) : (m.storing stored).Identified := by
  refine h.congr ⟨m.frames_storing stored, ?_⟩
  unfold Machine.storing
  split
  · rfl
  · rfl

/-- A value with its identity may be bound. -/
theorem binding (h : m.Identified) {v : Value} (hv : v.Settled) (frame : FrameId) (name : String) :
    (m.binding frame name v).Identified :=
  ⟨h.frames.bind hv frame name, h.imports⟩

/-- What a symbol stands for has its identity. -/
theorem valueOf (h : m.Identified) {frame : FrameId} {name : String} {v : Value}
    (hv : m.frames.valueOf frame name = .ok v) : v.Settled := by
  unfold Frames.valueOf at hv
  split at hv
  · cases hv
    intro mark
    rfl
  · split at hv
    · next hfound =>
      cases hv
      exact h.frames.lookup hfound
    · cases hv

theorem giving (h : m.Identified) {v : Value} (hv : v.Settled) :
    m.Identified ∧ ∀ w, (.ok v : Except Failure Value) = .ok w → w.Settled := by
  refine ⟨h, fun w hw => ?_⟩
  cases hw
  exact hv

/-- The machine and a failure. -/
theorem failing (h : m.Identified) (e : Failure) :
    m.Identified ∧ ∀ w, (.error e : Except Failure Value) = .ok w → w.Settled := by
  refine ⟨h, fun w hw => ?_⟩
  cases hw

end Machine.Identified

/-- The root frame of a session holds values with an identity. -/
theorem rootMembers_settled : ∀ b ∈ rootMembers, b.2.Settled := by
  have hold : rootMembers.all (fun b => !b.2.isNew) = true := by decide
  intro b hb
  have hb : b.2.isNew = false := by simpa using List.all_eq_true.1 hold b hb
  exact Value.identify_of_not_isNew hb

-- ====================================================== hosts

/-- A script that binds only values with an identity, as long as it is
given only such values. -/
def Script.Settles : Script σ → Prop
  | .finish _ => True
  | .eval _ next => ∀ answer, (∀ v, answer = .ok v → v.Settled) → (next answer).Settles
  | .get next => ∀ state cells, (next state cells).Settles
  | .set _ _ next => next.Settles
  | .lookup _ _ next => ∀ found, (∀ v, found = some v → v.Settled) → (next found).Settles
  | .bind _ _ v next => v.Settled ∧ next.Settles

/-- A host whose procedures bind only values with an identity. -/
structure Host.Settles (host : Host σ) : Prop where
  call : ∀ p args, (∀ v ∈ args, v.Settled) → (host.call p args).Settles
  invoke : ∀ module name args, (∀ v ∈ args, v.Settled) → (host.invoke module name args).Settles

/-- A script that binds nothing binds nothing new. -/
theorem Script.Confined.settles {script : Script σ} (h : script.Confined) : script.Settles := by
  induction script with
  | finish answer => trivial
  | eval code next ih => exact fun answer _ => ih answer (h answer)
  | get next ih => exact fun state cells => ih state cells (h state cells)
  | set state stored next ih => exact ih h
  | lookup frame name next ih => exact h.elim
  | bind frame name v next ih => exact h.elim

/-- Nor does a host without such scripts. -/
theorem Host.Confined.settles {host : Host σ} (h : host.Confined) : host.Settles :=
  ⟨fun p args _ => (h.call p args).settles,
    fun module name args _ => (h.invoke module name args).settles⟩

-- ====================================================== one step

/-- From a machine in which everything has its identity the visit comes to
another one, and its value has its identity. -/
def Visit.Settles (v : Visit σ) : Prop :=
  v.before.Identified → v.after.Identified ∧ ∀ w, v.answer = .ok w → w.Settled

/-- Operands settle if each does. -/
theorem Row.settles {codes : List Code} {m m' : Machine σ} {answer : Except Failure (List Value)}
    {inside : List (Visit σ)} (h : Row codes m answer m' inside)
    (hinside : ∀ v ∈ inside, v.Settles) (hm : m.Identified) :
    m'.Identified ∧ ∀ values, answer = .ok values → ∀ w ∈ values, w.Settled := by
  induction h with
  | nil =>
    refine ⟨hm, fun values hvalues => ?_⟩
    cases hvalues
    exact List.forall_mem_nil _
  | failed =>
    refine ⟨(hinside _ (.head _) hm).1, fun values hvalues => ?_⟩
    cases hvalues
  | @cons _ _ m v _ _ answer _ _ ih =>
    obtain ⟨hv, hrest⟩ := List.forall_mem_cons.1 hinside
    obtain ⟨hm₁, hsettled⟩ := hv hm
    obtain ⟨hm₂, hvalues⟩ := ih hrest hm₁
    refine ⟨hm₂, fun values hanswer => ?_⟩
    cases answer with
    | error e => cases hanswer
    | ok rest =>
      cases hanswer
      exact List.forall_mem_cons.2 ⟨hsettled v rfl, hvalues rest rfl⟩

/-- A script that binds only settled values. -/
theorem Performs.identified {script : Script σ} {m m' : Machine σ} {answer : Except Failure Value}
    {inside : List (Visit σ)} (h : Performs script m answer m' inside) (hscript : script.Settles)
    (hinside : ∀ v ∈ inside, v.Settles) (hm : m.Identified) : m'.Identified := by
  induction h with
  | finish => exact hm
  | eval _ ih =>
    obtain ⟨hv, hrest⟩ := List.forall_mem_cons.1 hinside
    obtain ⟨hm₁, hanswer⟩ := hv hm
    exact ih (hscript _ hanswer) hrest hm₁
  | get _ ih => exact ih (hscript _ _) hinside hm
  | @set state stored _ m _ _ _ _ ih =>
    have hset : Machine.Identified { m with host := state } := hm.congr ⟨rfl, rfl⟩
    exact ih hscript hinside (hset.storing stored)
  | lookup _ ih => exact ih (hscript _ fun v hv => hm.frames.lookup hv) hinside hm
  | bind _ ih => exact ih hscript.2 hinside (hm.binding hscript.1 _ _)

/-- A procedure of such a host. -/
theorem Applies.identified {host : Host σ} (hhost : host.Settles) {site : Site} {p : Proc}
    {args : List Value} {m m' : Machine σ} {answer : Except Failure Value}
    {inside : List (Visit σ)} (h : Applies host site p args m answer m' inside)
    (hargs : ∀ v ∈ args, v.Settled) (hinside : ∀ v ∈ inside, v.Settles) (hm : m.Identified) :
    m'.Identified := by
  cases h with
  | branch => exact (hinside _ (.head _) hm).1
  | standard hdone =>
    obtain ⟨hnotes, himports⟩ := Eval.Still.applyStandard host site args _ _ _ _ (hdone _)
    exact hm.congr ⟨hnotes.frames, himports⟩
  | host hscript => exact hscript.identified (hhost.call _ _ hargs) hinside hm
  | machine hscript => exact hscript.identified (hhost.invoke _ _ _ hargs) hinside hm
  | method => exact hm.storing _
  | function => exact hm.storing _

namespace Eval

/-- A member gets its identity when it is found. -/
theorem settled_of_member {host : Host σ} {site : Site} {v w : Value} {name : String}
    {m m' : Machine σ} (h : member host site v name m = .done (.ok w) m') : w.Settled := by
  have hsettled : ∀ {x : Eval σ Value} {m₁ : Machine σ},
      Eval.bind x (settle site.session) m₁ = .done (.ok w) m' → w.Settled := by
    intro x m₁ hx
    rcases bind_eq_done hx with ⟨e, -, hfailed⟩ | ⟨found, m₂, -, hfound⟩
    · cases hfailed
    · rw [settle_eq] at hfound
      cases hfound
      exact Value.settled_identify Mark.noConfusion found
  unfold member at h
  rcases bind_eq_done h with ⟨e, hget, -⟩ | ⟨_, m₁, -, hfound⟩
  · cases hget
  · dsimp only at hfound
    split at hfound
    · exact hsettled hfound
    · exact hsettled hfound

/-- So does a module. -/
theorem importModule_settles {session : Nat} {name : String} {m m' : Machine σ}
    {answer : Except Failure Value} (h : importModule session name m = .done answer m')
    (hm : m.Identified) : m'.Identified ∧ ∀ w, answer = .ok w → w.Settled := by
  rcases importModule_cases h with ⟨v, hentry, rfl, rfl⟩ | ⟨e, rfl, hnotes, himports⟩
    | ⟨v, n, rfl, hnotes, himports⟩
  · exact hm.giving (hm.imports _ (mem_of_lookup hentry))
  · exact (hm.congr ⟨hnotes.frames, himports⟩).failing e
  · have hv : (v.identify (.made session n)).Settled := Value.settled_identify Mark.noConfusion v
    have hm' : m'.Identified := by
      refine ⟨?_, ?_⟩
      · rw [hnotes.frames]
        exact hm.frames
      · rw [himports]
        exact List.forall_mem_cons.2 ⟨hv, hm.imports⟩
    exact hm'.giving hv

/-- So does one by a value. -/
theorem importNamed_settles {site : Site} {v : Value} {m m' : Machine σ}
    {answer : Except Failure Value} (h : importNamed site v m = .done answer m')
    (hm : m.Identified) : m'.Identified ∧ ∀ w, answer = .ok w → w.Settled := by
  unfold importNamed at h
  split at h
  · exact importModule_settles h hm
  · cases h
    exact hm.failing _

end Eval

/-- A call, from its head on. -/
theorem Applies.identified_of_row {host : Host σ} (hhost : host.Settles) {site : Site} {p : Proc}
    {head : Code} {rest : List Code} {m m₁ m₂ m₃ : Machine σ} {args : List Value}
    {answer : Except Failure Value} {inside within : List (Visit σ)}
    (hargs : Row rest m₁ (.ok args) m₂ inside)
    (hcall : Applies host site (p.read m₂.cells) (Value.readAll m₂.cells args)
      (m₂.noting (p.read m₂.cells) (Value.readAll m₂.cells args)) answer m₃ within)
    (hinside : ∀ v ∈ ⟨head, m, .ok (.proc p), m₁⟩ :: inside ++ within, v.Settles)
    (hm : m.Identified) : m₃.Identified := by
  obtain ⟨hfirst, hwithin⟩ := List.forall_mem_append.1 hinside
  obtain ⟨hhead, hrest⟩ := List.forall_mem_cons.1 hfirst
  obtain ⟨hm₂, hvalues⟩ := hargs.settles hrest (hhead hm).1
  have hread : ∀ v ∈ Value.readAll m₂.cells args, v.Settled := by
    rw [Value.readAll_eq_map, List.forall_mem_map]
    exact fun v hv => (hvalues args rfl v hv).read m₂.cells
  exact hcall.identified hhost hread hwithin (hm₂.congr ⟨rfl, rfl⟩)

/-- An expression settles if the expressions inside it do. -/
theorem Does.settles {host : Host σ} (hhost : host.Settles) {site : Site} {code : Code}
    {m m' : Machine σ} {answer : Except Failure Value} {inside : List (Visit σ)}
    (h : Does host site code m answer m' inside) (hinside : ∀ v ∈ inside, v.Settles)
    (hm : m.Identified) : m'.Identified ∧ ∀ w, answer = .ok w → w.Settled := by
  cases h with
  | constant hconstant => exact hm.giving (Value.settled_constant hconstant)
  | symbol => exact ⟨hm, fun w hw => hm.valueOf hw⟩
  | wide =>
    refine ⟨hm.congr ⟨rfl, rfl⟩, fun w hw => ?_⟩
    cases hw
    exact fun _ => rfl
  | empty => exact (hm.settling _).giving fun _ => rfl
  | misshapen => exact hm.failing _
  | quote => exact hm.giving (Value.settled_quoted _ _)
  | dotFailed | testFailed | defineFailed | importFailed | headFailed =>
    exact hinside _ (.head _) hm
  | dot hmember =>
    have hobject := (hinside _ (.head _) hm).1
    obtain ⟨hnotes, himports⟩ := Eval.Still.member (P := fun _ => False) host site _ _ _ _ _ hmember
    refine ⟨hobject.congr ⟨hnotes.frames, himports⟩, fun w hw => ?_⟩
    cases hw
    exact Eval.settled_of_member hmember
  | yes | no =>
    have htest := (hinside _ (.head _) hm).1
    exact hinside _ (.tail _ (.head _)) htest
  | neither => exact (hinside _ (.head _) hm).1.giving fun _ => rfl
  | define _ _ _ _ v =>
    obtain ⟨hvalue, hsettled⟩ := hinside _ (.head _) hm
    exact ⟨hvalue.binding (hsettled v rfl) _ _, hsettled⟩
  | importPlain _ _ himport => exact Eval.importModule_settles himport hm
  | importNamed _ _ himport =>
    exact Eval.importNamed_settles himport (hinside _ (.head _) hm).1
  | argsFailed _ _ _ _ hargs =>
    obtain ⟨hhead, hrest⟩ := List.forall_mem_cons.1 hinside
    exact (hargs.settles hrest (hhead hm).1).1.failing _
  | row _ _ _ _ hargs =>
    obtain ⟨hhead, hrest⟩ := List.forall_mem_cons.1 hinside
    exact ((hargs.settles hrest (hhead hm).1).1.settling _).giving fun _ => rfl
  | callFailed _ _ _ hargs hcall =>
    have hm₃ := hcall.identified_of_row hhost hargs hinside hm
    exact hm₃.failing _
  -- the answer of a call has no identity of its own yet; it is settled at its end
  | call _ _ _ hargs hcall =>
    have hm₃ := hcall.identified_of_row hhost hargs hinside hm
    exact (hm₃.settling _).giving (Value.settled_identify Mark.noConfusion _)

/-- A visit settles if the visits inside it do. -/
theorem Step.settles {host : Host σ} (hhost : host.Settles) {site : Site} {v : Visit σ}
    {inside : List (Visit σ)} (h : Step host site v inside) (hinside : ∀ v ∈ inside, v.Settles) :
    v.Settles := by
  intro hm
  cases h with
  | @canceled _ m =>
    have hasked : (Eval.asked m).Identified := hm.congr ⟨rfl, rfl⟩
    exact hasked.failing _
  | @proceeds _ m _ _ _ _ hdoes =>
    have hasked : (Eval.asked m).Identified := hm.congr ⟨rfl, rfl⟩
    exact hdoes.settles hhost hinside hasked

/-- What an expression evaluates to has its identity. -/
theorem Eval.eval_settles {host : Host σ} (hhost : host.Settles) {site : Site} {depth : Nat}
    {code : Code} {m m' : Machine σ} {answer : Except Failure Value}
    (h : eval host site depth code m = .done answer m') :
    Visit.Settles ⟨code, m, answer, m'⟩ := by
  induction depth generalizing code m m' answer with
  | zero => cases h
  | succ depth ih =>
    obtain ⟨inside, hstep, hmade⟩ := step_iff.1 h
    exact hstep.settles hhost fun v hv => ih (hmade v hv)

end LispShell
