/-
What an evaluation consists of.

The rules describe a step exactly, however the expressions inside it are
evaluated (`Eval.step_iff`). The one direction goes form by form and shows
that what the evaluator does is explained by some rule (`Explained`); the
other goes rule by rule.

A `Tour` is the tree of all visits of an evaluation. It is valid to a depth
if each of its visits follows from those inside by the rules. The
evaluations that end are those that have a valid tour (`Tour.eval_iff_tour`),
so what holds of an evaluation can be shown by cases on the rules and an
induction on the depth.
-/
import LispShell.Proofs.Rules
import Mathlib.Data.List.Forall2

namespace LispShell

variable {σ α β : Type}

-- ====================================================== steps follow the rules

namespace Eval

variable {host : Host σ} {site : Site} {inner : Inner σ} {m m' : Machine σ}

/-- Two computations one after the other end where the first failed or
where the second ends. -/
theorem bind_eq_done {x : Eval σ α} {f : α → Eval σ β} {answer : Except Failure β}
    (h : Eval.bind x f m = .done answer m') :
    (∃ e, x m = .done (.error e) m' ∧ answer = .error e)
      ∨ ∃ a m₁, x m = .done (.ok a) m₁ ∧ f a m₁ = .done answer m' := by
  cases hx : x m with
  | spent => simp [Eval.bind, hx] at h
  | done first m₁ =>
    cases first with
    | error e =>
      rw [bind_failed hx] at h
      cases h
      exact .inl ⟨e, rfl, rfl⟩
    | ok a =>
      rw [bind_done hx] at h
      exact .inr ⟨a, m₁, rfl, h⟩

/-- An attempt always has an answer to go on with. -/
theorem bind_attempt_eq_done {x : Eval σ α} {f : Except Failure α → Eval σ β}
    {answer : Except Failure β} (h : Eval.bind (attempt x) f m = .done answer m') :
    ∃ first m₁, x m = .done first m₁ ∧ f first m₁ = .done answer m' := by
  cases hx : x m with
  | spent => simp [Eval.bind, attempt, hx] at h
  | done first m₁ =>
    rw [bind_attempt hx] at h
    exact ⟨first, m₁, rfl, h⟩

/-- What settling a value does. -/
theorem settle_eq (session : Nat) (v : Value) (m : Machine σ) :
    settle session v m
      = .done (.ok (v.identify (.made session (m.serial session)))) (m.settling v) := by
  unfold settle Machine.settling
  cases hnew : v.isNew with
  | true => rfl
  | false =>
    rw [Value.identify_of_not_isNew hnew]
    rfl

theorem store_eq (stored : Cells) (m : Machine σ) :
    store stored m = .done (.ok ()) (m.storing stored) := by
  cases stored <;> rfl

/-- How the call of a method ends. -/
theorem conclude_eq (c : Called) (m : Machine σ) :
    conclude c m = .done c.answer (m.storing c.stored) := by
  refine (bind_done (store_eq c.stored m)).trans ?_
  cases c.answer <;> rfl

/-- A question that gets a yes. -/
theorem checkpoint_of_allows (h : site.allows m) :
    checkpoint site.patience m = .done (.ok ()) (asked m) := by
  cases hpatience : site.patience with
  | none => rfl
  | some n => exact checkpoint_of_lt (h n hpatience)

/-- A question that gets a no. -/
theorem checkpoint_of_not_allows (h : ¬site.allows m) :
    checkpoint site.patience m = .done (.error .canceled) (asked m) := by
  obtain ⟨n, hn⟩ := Classical.not_forall.1 h
  obtain ⟨hpatience, hlt⟩ := Classical.not_imp.1 hn
  rw [hpatience]
  exact checkpoint_of_le (Nat.not_lt.1 hlt)

theorem made_cons {code : Code} {m m₁ : Machine σ} {answer : Except Failure Value}
    {inside : List (Visit σ)} (h : inner code m = .done answer m₁)
    (hinside : ∀ v ∈ inside, v.MadeBy inner) :
    ∀ v ∈ ⟨code, m, answer, m₁⟩ :: inside, Visit.MadeBy v inner :=
  List.forall_mem_cons.2 ⟨h, hinside⟩

theorem made_head {code : Code} {m m₁ : Machine σ} {answer : Except Failure Value}
    {inside : List (Visit σ)} (h : ∀ v ∈ ⟨code, m, answer, m₁⟩ :: inside, Visit.MadeBy v inner) :
    inner code m = .done answer m₁ :=
  h _ List.mem_cons_self

/-- Values are collected by visits from left to right. -/
theorem collect_iff {codes : List Code} {answer : Except Failure (List Value)} :
    collect inner codes m = .done answer m'
      ↔ ∃ inside, Row codes m answer m' inside ∧ ∀ v ∈ inside, v.MadeBy inner := by
  constructor
  · intro h
    induction codes generalizing m answer with
    | nil =>
      cases h
      exact ⟨[], .nil _, List.forall_mem_nil _⟩
    | cons code rest ih =>
      rcases bind_eq_done h with ⟨e, hcode, rfl⟩ | ⟨v, m₁, hcode, hrest⟩
      · exact ⟨_, .failed code rest m e m', made_cons hcode (List.forall_mem_nil _)⟩
      · rcases bind_eq_done hrest with ⟨e, hfailed, rfl⟩ | ⟨vs, m₂, hvalues, hend⟩
        · obtain ⟨inside, hrow, hmade⟩ := ih hfailed
          exact ⟨_, .cons code m v hrow, made_cons hcode hmade⟩
        · cases hend
          obtain ⟨inside, hrow, hmade⟩ := ih hvalues
          exact ⟨_, .cons code m v hrow, made_cons hcode hmade⟩
  · rintro ⟨inside, hrow, hmade⟩
    induction hrow with
    | nil => rfl
    | failed code rest m e m₁ => exact bind_failed (made_head hmade)
    | @cons code rest m v m₁ m₂ answer inside _ ih =>
      have hrest := ih fun w hw => hmade w (List.mem_cons_of_mem _ hw)
      refine (bind_done (made_head hmade)).trans ?_
      cases answer with
      | error e => exact bind_failed hrest
      | ok vs => exact bind_done hrest

/-- A script is run by the visits it asks for. -/
theorem runScript_iff {script : Script σ} {answer : Except Failure Value} :
    runScript inner script m = .done answer m'
      ↔ ∃ inside, Performs script m answer m' inside ∧ ∀ v ∈ inside, v.MadeBy inner := by
  constructor
  · intro h
    -- towards the rules the induction is on the script, and back again on the derivation
    induction script generalizing m with
    | finish result =>
      have hsame : ofExcept result m = .done result m := by cases result <;> rfl
      cases hsame.symm.trans h
      exact ⟨[], .finish _ _, List.forall_mem_nil _⟩
    | eval code next ih =>
      obtain ⟨first, m₁, hcode, hnext⟩ := bind_attempt_eq_done h
      obtain ⟨inside, hperforms, hmade⟩ := ih first hnext
      exact ⟨_, .eval hperforms, made_cons hcode hmade⟩
    | get next ih =>
      obtain ⟨inside, hperforms, hmade⟩ := ih m.host m.cells h
      exact ⟨inside, .get hperforms, hmade⟩
    | set state stored next ih =>
      have hstored : Eval.bind (store stored) (fun _ => runScript inner next)
          { m with host := state } = .done answer m' := h
      rw [bind_done (store_eq stored _)] at hstored
      obtain ⟨inside, hperforms, hmade⟩ := ih hstored
      exact ⟨inside, .set hperforms, hmade⟩
    | lookup frame name next ih =>
      obtain ⟨inside, hperforms, hmade⟩ := ih (m.frames.lookup frame name) h
      exact ⟨inside, .lookup hperforms, hmade⟩
    | bind frame name value next ih =>
      obtain ⟨inside, hperforms, hmade⟩ := ih h
      exact ⟨inside, .bind hperforms, hmade⟩
  · rintro ⟨inside, hperforms, hmade⟩
    induction hperforms with
    | finish answer m => cases answer <;> rfl
    | eval _ ih =>
      have hnext := ih fun w hw => hmade w (List.mem_cons_of_mem _ hw)
      exact (bind_attempt (made_head hmade)).trans hnext
    | get _ ih => exact ih hmade
    | set _ ih => exact (bind_done (store_eq _ _)).trans (ih hmade)
    | lookup _ ih => exact ih hmade
    | bind _ ih => exact ih hmade

/-- The branch that `cond` picks is evaluated. -/
theorem condProcedure_picked {args : List Value} {code : Code}
    (h : Value.picked? args = some code) : condProcedure inner args = inner code := by
  unfold Value.picked? at h
  unfold condProcedure
  split at h
  · next test yes =>
    split at h
    · next htrue =>
      simp only [htrue, if_true, h]
      rfl
    · cases h
  · simp only [h]
    rfl
  · cases h

/-- Without an expression to go on with, `cond` evaluates nothing. -/
theorem condProcedure_unpicked {args : List Value} (h : Value.picked? args = none)
    (inner inner' : Inner σ) : condProcedure inner args = condProcedure inner' args := by
  unfold Value.picked? at h
  unfold condProcedure
  split at h
  · next test yes =>
    split at h
    · next htrue => simp only [htrue, if_true, h]
    · next hfalse =>
      simp only [if_neg hfalse]
      rfl
  · simp only [h]
  · next htwo hthree =>
    have harity : Arity.admits (.between 2 3) args.length = false := by
      rcases args with _ | ⟨_, _ | ⟨_, _ | ⟨_, _ | ⟨_, rest⟩⟩⟩⟩
      · rfl
      · rfl
      · exact absurd rfl (htwo _ _)
      · exact absurd rfl (hthree _ _ _)
      · simp [Arity.admits, Arity.between]
    unfold checkArity
    rw [harity]
    rfl

/-- A procedure is applied by the visits it asks for. -/
theorem applyProc_iff {p : Proc} {args : List Value} {answer : Except Failure Value} :
    applyProc host site inner args p m = .done answer m'
      ↔ ∃ inside, Applies host site p args m answer m' inside ∧ ∀ v ∈ inside, v.MadeBy inner := by
  constructor
  · intro h
    -- `cond` is the one standard procedure that may evaluate; for the others `inner` is idle and
    -- the rule asks for every choice of it
    cases p with
    | standard p =>
      by_cases hcond : p = .cond
      · rw [hcond] at h ⊢
        cases hpicked : Value.picked? args with
        | some code =>
          rw [applyProc, applyStandard, condProcedure_picked hpicked] at h
          exact ⟨_, .branch hpicked m answer m', made_cons h (List.forall_mem_nil _)⟩
        | none =>
          refine ⟨[], .standard fun inner' => ?_, List.forall_mem_nil _⟩
          rw [applyStandard, condProcedure_unpicked hpicked inner' inner]
          exact h
      · refine ⟨[], .standard fun inner' => ?_, List.forall_mem_nil _⟩
        cases p with
        | cond => exact absurd rfl hcond
        | _ => exact h
    | host p =>
      obtain ⟨inside, hperforms, hmade⟩ := runScript_iff.1 h
      exact ⟨inside, .host hperforms, hmade⟩
    | machine module name =>
      obtain ⟨inside, hperforms, hmade⟩ := runScript_iff.1 h
      exact ⟨inside, .machine hperforms, hmade⟩
    | method receiver name =>
      cases (conclude_eq _ m).symm.trans h
      exact ⟨[], .method receiver name args m, List.forall_mem_nil _⟩
    | function name key =>
      cases (conclude_eq _ m).symm.trans h
      exact ⟨[], .function name key args m, List.forall_mem_nil _⟩
  · rintro ⟨inside, happlies, hmade⟩
    cases happlies with
    | branch hpicked =>
      rw [applyProc, applyStandard, condProcedure_picked hpicked]
      exact made_head hmade
    | standard hdone => exact hdone inner
    | host hperforms => exact runScript_iff.2 ⟨inside, hperforms, hmade⟩
    | machine hperforms => exact runScript_iff.2 ⟨inside, hperforms, hmade⟩
    | method => exact conclude_eq _ _
    | function => exact conclude_eq _ _

-- ====================================================== forms

/-- A list without a keyword is a call or a sequence. -/
theorem evalList_of_not_keyword {head : Code} (h : head.isKeyword = false) (form : Code)
    (rest : List Code) : evalList host site inner form (head :: rest)
      = apply host site inner head rest := by
  unfold evalList
  dsimp only
  split
  · cases h
  · cases h
  · cases h
  · cases h
  · cases h
  · rfl

theorem complain_eq (f : String → Fault) (code : Code) (m : Machine σ) :
    (complain f code : Eval σ α) m = .done (.error (.fault (f (code.read m.cells).render))) m :=
  rfl

/-- A special form with the wrong parts evaluates nothing. -/
theorem evalList_of_misshapen {form : Code} {items : List Code} {f : Fault}
    (h : Expr.misshapen? m.cells form items = some f) :
    evalList host site inner form items m = .done (.error (.fault f)) m := by
  -- the check and the form split on the same parts: whatever the check has nothing against is
  -- contradicted by `h`
  unfold Expr.misshapen? at h
  split at h
  · show dotForm host site inner form _ m = _
    unfold dotForm
    split at h
    · cases h
    · cases h
      simp_all [complain_eq]
    · cases h
      simp_all [complain_eq]
  · show ifForm inner form _ m = _
    unfold ifForm
    split at h
    · cases h
    · cases h
    · cases h
      simp_all [complain_eq]
  · show defineForm site inner form _ m = _
    unfold defineForm
    split at h
    · split at h
      · next hname =>
        cases h
        simp only [hname, if_true]
        rfl
      · cases h
    · cases h
      simp_all [complain_eq]
    · cases h
      simp_all [complain_eq]
  · show importForm site inner form _ m = _
    unfold importForm
    split at h
    · cases h
    · cases h
      simp_all [complain_eq]
  · cases h

/-- The visits inside are made by the evaluator and make the rest happen. -/
def Explained (host : Host σ) (site : Site) (inner : Inner σ) (code : Code) (m : Machine σ)
    (answer : Except Failure Value) (m' : Machine σ) : Prop :=
  ∃ inside, Does host site code m answer m' inside ∧ ∀ v ∈ inside, v.MadeBy inner

variable {answer : Except Failure Value} {mark : Mark}

/-- A complaint about the parts. -/
theorem explained_fault {items : List Code} {f : Fault}
    (hshape : Expr.misshapen? m.cells (.list mark items) items = some f)
    (h : (fault f : Eval σ Value) m = .done answer m') :
    Explained host site inner (.list mark items) m answer m' := by
  cases h
  exact ⟨[], .misshapen hshape, List.forall_mem_nil _⟩

/-- A member form follows a rule. -/
theorem explained_dot {parts : List Code}
    (h : dotForm host site inner (.list mark (.symbol "." :: parts)) parts m = .done answer m') :
    Explained host site inner (.list mark (.symbol "." :: parts)) m answer m' := by
  unfold dotForm at h
  split at h
  · next object name =>
    rcases bind_eq_done h with ⟨e, hobject, rfl⟩ | ⟨v, m₁, hobject, hmember⟩
    · exact ⟨_, .dotFailed mark object name m e m', made_cons hobject (List.forall_mem_nil _)⟩
    · exact ⟨_, .dot hmember, made_cons hobject (List.forall_mem_nil _)⟩
  · next hother => exact explained_fault (by simp_all [Expr.misshapen?]) h
  · next hother => exact explained_fault (by simp_all [Expr.misshapen?]) h

/-- How a test ends. -/
theorem holds_eq_done {test : Code} {result : Except Failure Bool}
    (h : holds inner test m = .done result m') :
    (∃ e, inner test m = .done (.error e) m' ∧ result = .error e)
      ∨ ∃ v, inner test m = .done (.ok v) m' ∧ result = .ok (v.read m'.cells).truthy := by
  rcases bind_eq_done h with ⟨e, htest, rfl⟩ | ⟨v, m₁, htest, hend⟩
  · exact .inl ⟨e, htest, rfl⟩
  · cases hend
    exact .inr ⟨v, htest, rfl⟩

/-- A choice follows a rule if it does where the test does not hold. -/
theorem explained_choice {test yes : Code} {rest : List Code} (hrest : rest.length ≤ 1)
    {otherwise : Eval σ Value}
    (h : Eval.bind (holds inner test) (fun b => if b then inner yes else otherwise) m
      = .done answer m')
    (hother : ∀ v m₁, inner test m = .done (.ok v) m₁ → (v.read m₁.cells).truthy = false →
      otherwise m₁ = .done answer m' →
      Explained host site inner (.list mark (.symbol "if" :: test :: yes :: rest)) m answer m') :
    Explained host site inner (.list mark (.symbol "if" :: test :: yes :: rest)) m answer m' := by
  rcases bind_eq_done h with ⟨e, htest, rfl⟩ | ⟨b, m₁, htest, hbranch⟩
  · rcases holds_eq_done htest with ⟨e', hvalue, ⟨⟩⟩ | ⟨v, hvalue, ⟨⟩⟩
    exact ⟨_, .testFailed mark test yes hrest m e m', made_cons hvalue (List.forall_mem_nil _)⟩
  · rcases holds_eq_done htest with ⟨e', hvalue, ⟨⟩⟩ | ⟨v, hvalue, hb⟩
    cases hb
    split at hbranch
    · next hv =>
      exact ⟨_, .yes mark test yes hrest m hv answer m',
        made_cons hvalue (made_cons hbranch (List.forall_mem_nil _))⟩
    · next hv => exact hother v m₁ hvalue (Bool.not_eq_true _ ▸ hv) hbranch

/-- A choice follows a rule. -/
theorem explained_if {parts : List Code}
    (h : ifForm inner (.list mark (.symbol "if" :: parts)) parts m = .done answer m') :
    Explained host site inner (.list mark (.symbol "if" :: parts)) m answer m' := by
  unfold ifForm at h
  split at h
  · next test yes =>
    refine explained_choice (by simp) h fun v m₁ hvalue hv hend => ?_
    cases hend
    exact ⟨_, .neither mark test yes m hv, made_cons hvalue (List.forall_mem_nil _)⟩
  · next test yes no =>
    refine explained_choice (by simp) h fun v m₁ hvalue hv hbranch => ?_
    exact ⟨_, .no mark test yes no m hv answer m',
      made_cons hvalue (made_cons hbranch (List.forall_mem_nil _))⟩
  · next hother => exact explained_fault (by simp_all [Expr.misshapen?]) h

/-- A definition follows a rule. -/
theorem explained_define {parts : List Code}
    (h : defineForm site inner (.list mark (.symbol "define" :: parts)) parts m
      = .done answer m') :
    Explained host site inner (.list mark (.symbol "define" :: parts)) m answer m' := by
  unfold defineForm at h
  split at h
  · next target value =>
    split at h
    · next name =>
      split at h
      · next hname => exact explained_fault (by simp_all [Expr.misshapen?]) h
      · next hname =>
        have hname : isLiteral name = false := by simpa using hname
        rcases bind_eq_done h with ⟨e, hvalue, rfl⟩ | ⟨v, m₁, hvalue, hbind⟩
        · exact ⟨_, .defineFailed mark hname value m e m',
            made_cons hvalue (List.forall_mem_nil _)⟩
        · cases hbind
          exact ⟨_, .define mark hname value m v m₁, made_cons hvalue (List.forall_mem_nil _)⟩
    · next hother => exact explained_fault (by simp_all [Expr.misshapen?]) h
  · next hother => exact explained_fault (by simp_all [Expr.misshapen?]) h

/-- An import follows a rule. -/
theorem explained_import {parts : List Code}
    (h : importForm site inner (.list mark (.symbol "import" :: parts)) parts m
      = .done answer m') :
    Explained host site inner (.list mark (.symbol "import" :: parts)) m answer m' := by
  have hnamed : ∀ {part : Code}, (∀ name, part = .symbol name → isLiteral name = true) →
      Eval.bind (inner part) (fun v => importNamed site v) m = .done answer m' →
      Explained host site inner (.list mark [.symbol "import", part]) m answer m' := by
    intro part hpart h
    rcases bind_eq_done h with ⟨e, hvalue, rfl⟩ | ⟨v, m₁, hvalue, himport⟩
    · exact ⟨_, .importFailed mark hpart m e m', made_cons hvalue (List.forall_mem_nil _)⟩
    · exact ⟨_, .importNamed mark hpart himport, made_cons hvalue (List.forall_mem_nil _)⟩
  unfold importForm at h
  split at h
  · next name =>
    split at h
    · next hname =>
      refine hnamed ?_ h
      rintro _ ⟨rfl⟩
      exact hname
    · next hname => exact ⟨[], .importPlain mark (by simpa using hname) h, List.forall_mem_nil _⟩
  · next part hother =>
    refine hnamed (fun name hsymbol => ?_) h
    exact absurd hsymbol (hother name)
  · next hother => exact explained_fault (by simp_all [Expr.misshapen?]) h

/-- What quoting does. -/
theorem quoteForm_eq (parts : List Code) (m : Machine σ) :
    quoteForm parts m = .done (.ok (Value.quoted m.cells parts)) m := by
  rcases parts with _ | ⟨code, _ | ⟨second, rest⟩⟩
  · rfl
  · rfl
  · rfl

theorem explained_quote {parts : List Code} (h : quoteForm parts m = .done answer m') :
    Explained host site inner (.list mark (.symbol "quote" :: parts)) m answer m' := by
  rw [quoteForm_eq] at h
  cases h
  exact ⟨[], .quote mark parts m, List.forall_mem_nil _⟩

theorem mapFailure_failed {f : Failure → Failure} {x : Eval σ α} {e : Failure}
    (h : x m = .done (.error e) m') : mapFailure f x m = .done (.error (f e)) m' := by
  simp only [mapFailure, h]

theorem mapFailure_done {f : Failure → Failure} {x : Eval σ α} {a : α}
    (h : x m = .done (.ok a) m') : mapFailure f x m = .done (.ok a) m' := by
  simp only [mapFailure, h]

theorem call_failed {p : Proc} {args : List Value} {e : Failure}
    (h : applyProc host site inner args p (m.noting p args) = .done (.error e) m') :
    call host site inner p args m = .done (.error e.ofCall) m' :=
  bind_failed (mapFailure_failed h)

/-- A call whose procedure has a value. -/
theorem call_done {p : Proc} {args : List Value} {v : Value}
    (h : applyProc host site inner args p (m.noting p args) = .done (.ok v) m') :
    call host site inner p args m
      = .done (.ok (v.identify (.made site.session (m'.serial site.session)))) (m'.settling v) :=
  (bind_done (mapFailure_done h)).trans (settle_eq site.session v m')

/-- A call whose procedure does not end. -/
theorem call_spent {p : Proc} {args : List Value}
    (h : applyProc host site inner args p (m.noting p args) = .spent) :
    call host site inner p args m = .spent := by
  show Eval.bind (mapFailure Failure.ofCall (applyProc host site inner args p)) _
    (m.noting p args) = .spent
  simp only [Eval.bind, mapFailure, h]

/-- A call ends where its procedure does. -/
theorem exists_of_call {p : Proc} {args : List Value}
    (h : call host site inner p args m = .done answer m') :
    ∃ result m₁, applyProc host site inner args p (m.noting p args) = .done result m₁ := by
  cases happly : applyProc host site inner args p (m.noting p args) with
  | done result m₁ => exact ⟨result, m₁, rfl⟩
  | spent =>
    rw [call_spent happly] at h
    cases h

/-- A call follows a rule. -/
theorem explained_call {head : Code} (hhead : head.isKeyword = false) {rest : List Code}
    {p : Proc} {args : List Value} {m₁ m₂ : Machine σ} {inside : List (Visit σ)}
    (hvalue : inner head m = .done (.ok (.proc p)) m₁) (hrow : Row rest m₁ (.ok args) m₂ inside)
    (hmade : ∀ v ∈ inside, v.MadeBy inner)
    (h : call host site inner (p.read m₂.cells) (Value.readAll m₂.cells args) m₂
      = .done answer m') :
    Explained host site inner (.list mark (head :: rest)) m answer m' := by
  obtain ⟨result, m₃, happly⟩ := exists_of_call h
  obtain ⟨within, happlies, hwithin⟩ := applyProc_iff.1 happly
  have hall := List.forall_mem_append.2 ⟨made_cons hvalue hmade, hwithin⟩
  cases result with
  | error e =>
    rw [call_failed happly] at h
    cases h
    exact ⟨_, .callFailed mark hhead m hrow happlies, hall⟩
  | ok v =>
    rw [call_done happly] at h
    cases h
    exact ⟨_, .call mark hhead m hrow happlies, hall⟩

/-- A call or a sequence follows a rule. -/
theorem explained_apply {head : Code} (hhead : head.isKeyword = false) {rest : List Code}
    (h : apply host site inner head rest m = .done answer m') :
    Explained host site inner (.list mark (head :: rest)) m answer m' := by
  rcases bind_eq_done h with ⟨e, hvalue, rfl⟩ | ⟨v, m₁, hvalue, hrest⟩
  · exact ⟨_, .headFailed mark hhead rest m e m', made_cons hvalue (List.forall_mem_nil _)⟩
  · rcases bind_eq_done hrest with ⟨e, hcollect, rfl⟩ | ⟨args, m₂, hcollect, hend⟩
    · obtain ⟨inside, hrow, hmade⟩ := collect_iff.1 hcollect
      exact ⟨_, .argsFailed mark hhead m v hrow, made_cons hvalue hmade⟩
    · obtain ⟨inside, hrow, hmade⟩ := collect_iff.1 hcollect
      have hsequence : (∀ p, v ≠ .proc p) → settle site.session (Value.row (v :: args)) m₂
          = .done answer m' →
            Explained host site inner (.list mark (head :: rest)) m answer m' := by
        intro hproc hsettle
        rw [settle_eq] at hsettle
        cases hsettle
        exact ⟨_, .row mark hhead m hproc hrow, made_cons hvalue hmade⟩
      cases v with
      | proc p => exact explained_call hhead hvalue hrow hmade hend
      | _ => exact hsequence (fun p => Value.noConfusion) hend

/-- A list follows a rule. -/
theorem explained_list {items : List Code}
    (h : evalList host site inner (.list mark items) items m = .done answer m') :
    Explained host site inner (.list mark items) m answer m' := by
  cases items with
  | nil =>
    have hsettle : settle site.session (Value.row []) m = .done answer m' := h
    rw [settle_eq] at hsettle
    cases hsettle
    exact ⟨[], .empty mark m, List.forall_mem_nil _⟩
  | cons head rest =>
    by_cases hhead : head.isKeyword = true
    · unfold evalList at h
      dsimp only at h
      split at h
      · exact explained_dot h
      · exact explained_if h
      · exact explained_define h
      · exact explained_import h
      · exact explained_quote h
      · next hdot hif hdefine himport hquote =>
        unfold Expr.isKeyword at hhead
        split at hhead
        · simp_all
        · cases hhead
    · rw [Bool.not_eq_true] at hhead
      rw [evalList_of_not_keyword hhead] at h
      exact explained_apply hhead h

-- ====================================================== one step

/-- What a step does after the question whether to go on. -/
def proceed (host : Host σ) (site : Site) (inner : Inner σ) (code : Code) : Eval σ Value :=
  match code with
  | .symbol name => lookup site name
  | .int n => Eval.pure (.int n)
  | .float x => Eval.pure (.float x)
  | .text s => Eval.pure (.text s)
  | .wide mark n => wideLiteral site mark n
  | .list _ items => evalList host site inner code items

/-- A step is a question and what comes after it. -/
theorem step_eq (code : Code) : step host site inner code
    = Eval.bind (checkpoint site.patience) fun _ => proceed host site inner code :=
  rfl

/-- What looking up a symbol does. -/
theorem lookup_eq (name : String) (m : Machine σ) :
    lookup site name m = .done (m.frames.valueOf site.frame name) m := by
  unfold lookup Frames.valueOf
  split
  · rfl
  · simp only [bind, Eval.bind, get]
    cases m.frames.lookup site.frame name <;> rfl

theorem wideLiteral_eq (mark : Mark) (n : Int) (m : Machine σ) :
    wideLiteral site mark n m = .done
      (.ok (.wide (.made site.session (m.serial site.session)) (m.cells.whole mark n)))
      { m with made := m.made + 1 } :=
  rfl

/-- Every expression follows a rule. -/
theorem explained_of_proceed {code : Code}
    (h : proceed host site inner code m = .done answer m') :
    Explained host site inner code m answer m' := by
  cases code with
  | symbol name =>
    cases (lookup_eq name m).symm.trans h
    exact ⟨[], .symbol name m, List.forall_mem_nil _⟩
  | wide mark n =>
    cases (wideLiteral_eq mark n m).symm.trans h
    exact ⟨[], .wide mark n m, List.forall_mem_nil _⟩
  | list mark items => exact explained_list h
  | _ =>
    cases h
    exact ⟨[], .constant rfl m, List.forall_mem_nil _⟩

/-- A list whose head is a procedure is a call. -/
theorem apply_of_proc {head : Code} {rest : List Code} {p : Proc} {args : List Value}
    {m₁ m₂ : Machine σ} (hhead : inner head m = .done (.ok (.proc p)) m₁)
    (hargs : collect inner rest m₁ = .done (.ok args) m₂) :
    apply host site inner head rest m
      = call host site inner (p.read m₂.cells) (Value.readAll m₂.cells args) m₂ :=
  (bind_done hhead).trans (bind_done hargs)

/-- A list whose head is another value is a sequence. -/
theorem apply_of_value {head : Code} {rest : List Code} {h : Value} {args : List Value}
    {m₁ m₂ : Machine σ} (hproc : ∀ p, h ≠ .proc p) (hhead : inner head m = .done (.ok h) m₁)
    (hargs : collect inner rest m₁ = .done (.ok args) m₂) :
    apply host site inner head rest m = settle site.session (Value.row (h :: args)) m₂ := by
  refine (bind_done hhead).trans ((bind_done hargs).trans ?_)
  cases h with
  | proc p => exact absurd rfl (hproc p)
  | _ => rfl

/-- A test that has a value. -/
theorem holds_done {test : Code} {v : Value} {m₁ : Machine σ}
    (htest : inner test m = .done (.ok v) m₁) :
    holds inner test m = .done (.ok (v.read m₁.cells).truthy) m₁ :=
  bind_done htest

/-- The first branch is picked. -/
theorem ifForm_of_true {form test yes : Code} {rest : List Code} (hrest : rest.length ≤ 1)
    {v : Value} {m₁ : Machine σ} (hv : (v.read m₁.cells).truthy = true)
    (htest : inner test m = .done (.ok v) m₁) :
    ifForm inner form (test :: yes :: rest) m = inner yes m₁ := by
  have hholds := holds_done htest
  rw [hv] at hholds
  rcases rest with _ | ⟨no, _ | ⟨more, rest⟩⟩
  · exact bind_done hholds
  · exact bind_done hholds
  · simp at hrest

/-- The second branch is picked. -/
theorem ifForm_of_false (form : Code) {test yes no : Code} {v : Value} {m₁ : Machine σ}
    (hv : (v.read m₁.cells).truthy = false) (htest : inner test m = .done (.ok v) m₁) :
    ifForm inner form [test, yes, no] m = inner no m₁ := by
  have hholds := holds_done htest
  rw [hv] at hholds
  exact bind_done hholds

/-- There is no second branch to pick. -/
theorem ifForm_of_neither (form : Code) {test yes : Code} {v : Value} {m₁ : Machine σ}
    (hv : (v.read m₁.cells).truthy = false) (htest : inner test m = .done (.ok v) m₁) :
    ifForm inner form [test, yes] m = .done (.ok (.bool false)) m₁ := by
  have hholds := holds_done htest
  rw [hv] at hholds
  exact bind_done hholds

/-- The test fails. -/
theorem ifForm_of_failed {form test yes : Code} {rest : List Code} (hrest : rest.length ≤ 1)
    {e : Failure} {m₁ : Machine σ} (htest : inner test m = .done (.error e) m₁) :
    ifForm inner form (test :: yes :: rest) m = .done (.error e) m₁ := by
  have hholds : holds inner test m = .done (.error e) m₁ := bind_failed htest
  rcases rest with _ | ⟨no, _ | ⟨more, rest⟩⟩
  · exact bind_failed hholds
  · exact bind_failed hholds
  · simp at hrest

/-- An import by a plain name. -/
theorem proceed_import_name {name : String} (hname : isLiteral name = false) :
    proceed host site inner (.list mark [.symbol "import", .symbol name])
      = importModule site.session name := by
  have h : importForm site inner (.list mark [.symbol "import", .symbol name]) [.symbol name]
      = importModule site.session name := by
    simp [importForm, hname]
  exact h

/-- An import by a value. -/
theorem proceed_import_value {part : Code}
    (hpart : ∀ name, part = .symbol name → isLiteral name = true) :
    proceed host site inner (.list mark [.symbol "import", part])
      = Eval.bind (inner part) fun v => importNamed site v := by
  cases part with
  | symbol name =>
    have h : importForm site inner (.list mark [.symbol "import", .symbol name]) [.symbol name]
        = Eval.bind (inner (.symbol name)) fun v => importNamed site v := by
      simp only [importForm, if_pos (hpart name rfl)]
      rfl
    exact h
  | _ => rfl

/-- A definition. -/
theorem proceed_define {value : Code} {name : String} (hname : isLiteral name = false) :
    proceed host site inner (.list mark [.symbol "define", .symbol name, value])
      = Eval.bind (inner value) fun v => Eval.bind (define site.frame name v) fun _ =>
          Eval.pure v := by
  have h : defineForm site inner (.list mark [.symbol "define", .symbol name, value])
      [.symbol name, value] = Eval.bind (inner value) fun v =>
        Eval.bind (define site.frame name v) fun _ => Eval.pure v := by
    simp only [defineForm, hname]
    rfl
  exact h

theorem proceed_apply {head : Code} (hhead : head.isKeyword = false) (rest : List Code) :
    proceed host site inner (.list mark (head :: rest)) = apply host site inner head rest :=
  evalList_of_not_keyword hhead _ rest

/-- What a rule says is what happens. -/
theorem proceed_of_does {code : Code} {inside : List (Visit σ)}
    (h : Does host site code m answer m' inside) (hmade : ∀ v ∈ inside, v.MadeBy inner) :
    proceed host site inner code m = .done answer m' := by
  -- the rules are the branches of `proceed`, so each case runs one of them on what `inside` says
  -- about the parts
  cases h with
  | @constant code v hconstant m =>
    cases code with
    | symbol name => cases hconstant
    | wide mark n => cases hconstant
    | list mark items => cases hconstant
    | _ =>
      cases hconstant
      rfl
  | wide mark n m => exact wideLiteral_eq mark n m
  | symbol name m => exact lookup_eq name m
  | empty mark m => exact settle_eq site.session (Value.row []) m
  | misshapen hshape => exact evalList_of_misshapen hshape
  | quote mark parts m => exact quoteForm_eq parts m
  | dotFailed => exact bind_failed (made_head hmade)
  | dot hmember => exact (bind_done (made_head hmade)).trans hmember
  | testFailed _ _ _ hrest => exact ifForm_of_failed hrest (made_head hmade)
  | yes _ _ _ hrest _ hv =>
    obtain ⟨htest, hbranch⟩ := List.forall_mem_cons.1 hmade
    exact (ifForm_of_true hrest hv htest).trans (made_head hbranch)
  | no mark test yes no _ hv =>
    obtain ⟨htest, hbranch⟩ := List.forall_mem_cons.1 hmade
    exact (ifForm_of_false (.list mark [.symbol "if", test, yes, no]) hv htest).trans
      (made_head hbranch)
  | neither mark test yes _ hv =>
    exact ifForm_of_neither (.list mark [.symbol "if", test, yes]) hv (made_head hmade)
  | defineFailed _ hname =>
    rw [proceed_define hname]
    exact bind_failed (made_head hmade)
  | define _ hname =>
    rw [proceed_define hname]
    exact bind_done (made_head hmade)
  | importPlain _ hname himport =>
    rw [proceed_import_name hname]
    exact himport
  | importFailed _ hpart =>
    rw [proceed_import_value hpart]
    exact bind_failed (made_head hmade)
  | importNamed _ hpart himport =>
    rw [proceed_import_value hpart]
    exact (bind_done (made_head hmade)).trans himport
  | headFailed _ hhead =>
    rw [proceed_apply hhead]
    exact bind_failed (made_head hmade)
  | @argsFailed _ _ hhead _ _ _ _ _ _ inside hargs =>
    obtain ⟨hvalue, hmade⟩ := List.forall_mem_cons.1 hmade
    rw [proceed_apply hhead]
    exact (bind_done hvalue).trans (bind_failed (collect_iff.2 ⟨inside, hargs, hmade⟩))
  | @row _ _ hhead _ _ _ hproc _ _ _ inside hargs =>
    obtain ⟨hvalue, hmade⟩ := List.forall_mem_cons.1 hmade
    rw [proceed_apply hhead, apply_of_value hproc hvalue (collect_iff.2 ⟨inside, hargs, hmade⟩)]
    exact settle_eq site.session _ _
  | @callFailed _ _ hhead _ _ _ _ _ _ _ _ inside within hargs hcall =>
    obtain ⟨hvalue, hmade⟩ := List.forall_mem_cons.1 hmade
    obtain ⟨hinside, hwithin⟩ := List.forall_mem_append.1 hmade
    rw [proceed_apply hhead, apply_of_proc hvalue (collect_iff.2 ⟨inside, hargs, hinside⟩)]
    exact call_failed (applyProc_iff.2 ⟨within, hcall, hwithin⟩)
  | @call _ _ hhead _ _ _ _ _ _ _ _ inside within hargs hcall =>
    obtain ⟨hvalue, hmade⟩ := List.forall_mem_cons.1 hmade
    obtain ⟨hinside, hwithin⟩ := List.forall_mem_append.1 hmade
    rw [proceed_apply hhead, apply_of_proc hvalue (collect_iff.2 ⟨inside, hargs, hinside⟩)]
    exact call_done (applyProc_iff.2 ⟨within, hcall, hwithin⟩)

/-- The rules say exactly what one step does, however the expressions
inside are evaluated. -/
theorem step_iff {code : Code} : step host site inner code m = .done answer m'
    ↔ ∃ inside, Step host site ⟨code, m, answer, m'⟩ inside ∧ ∀ v ∈ inside, v.MadeBy inner := by
  rw [step_eq]
  constructor
  · intro h
    by_cases hasked : site.allows m
    · rw [bind_done (checkpoint_of_allows hasked)] at h
      obtain ⟨inside, hdoes, hmade⟩ := explained_of_proceed h
      exact ⟨inside, .proceeds hasked hdoes, hmade⟩
    · rw [bind_failed (checkpoint_of_not_allows hasked)] at h
      cases h
      exact ⟨[], .canceled code hasked, List.forall_mem_nil _⟩
  · rintro ⟨inside, hstep, hmade⟩
    cases hstep with
    | canceled _ hasked => exact bind_failed (checkpoint_of_not_allows hasked)
    | proceeds hasked hdoes =>
      exact (bind_done (checkpoint_of_allows hasked)).trans (proceed_of_does hdoes hmade)

-- ====================================================== expressions that evaluate nothing

/-- An expression that evaluates nothing inside has the value it stands for,
unless it is cancelled. -/
theorem eval_still {depth : Nat} {code : Code} {v : Value}
    (hstill : ∀ inner, proceed host site inner code (asked m) = .done (.ok v) (asked m))
    (h : eval host site depth code m = .done answer m') :
    (answer = .error .canceled ∨ answer = .ok v) ∧ m' = asked m := by
  cases depth with
  | zero => cases h
  | succ depth =>
    rw [eval, step_eq] at h
    by_cases hasked : site.allows m
    · rw [bind_done (checkpoint_of_allows hasked), hstill] at h
      cases h
      exact ⟨.inr rfl, rfl⟩
    · rw [bind_failed (checkpoint_of_not_allows hasked)] at h
      cases h
      exact ⟨.inl rfl, rfl⟩

/-- Such an expression fails only if it is cancelled. -/
theorem eval_still_failed {depth : Nat} {code : Code} {v : Value} {e : Failure}
    (hstill : ∀ inner, proceed host site inner code (asked m) = .done (.ok v) (asked m))
    (h : eval host site depth code m = .done (.error e) m') : e = .canceled := by
  rcases (eval_still hstill h).1 with hanswer | hanswer
  · exact Except.error.inj hanswer
  · cases hanswer

/-- If it has a value, that is the one it stands for. -/
theorem eval_still_done {depth : Nat} {code : Code} {v w : Value}
    (hstill : ∀ inner, proceed host site inner code (asked m) = .done (.ok v) (asked m))
    (h : eval host site depth code m = .done (.ok w) m') : w = v ∧ m' = asked m := by
  obtain ⟨hanswer | hanswer, hm'⟩ := eval_still hstill h
  · cases hanswer
  · exact ⟨Except.ok.inj hanswer, hm'⟩

/-- A symbol that is bound. -/
theorem proceed_symbol {name : String} {v : Value} {m : Machine σ} (hname : isLiteral name = false)
    (hv : m.frames.lookup site.frame name = some v) (inner : Inner σ) :
    proceed host site inner (.symbol name) m = .done (.ok v) m := by
  refine (lookup_eq name m).trans ?_
  simp only [Frames.valueOf, hname, hv]
  rfl

/-- An expression that stands for a value, whatever the machine, as long as
nothing else is stored. -/
def Fixed (host : Host σ) (site : Site) (cells : Cells) (code : Code) (v : Value) : Prop :=
  ∀ inner m, m.cells = cells → proceed host site inner code m = .done (.ok v) m

/-- The values of such expressions, unless they are cancelled. -/
theorem collect_fixed {depth : Nat} {codes : List Code} {values : List Value}
    {cells : Cells} (hfixed : List.Forall₂ (Fixed host site cells) codes values)
    {m m' : Machine σ} (hcells : m.cells = cells) {answer : Except Failure (List Value)}
    (h : collect (eval host site depth) codes m = .done answer m') :
    answer = .error .canceled
      ∨ answer = .ok values ∧ m'.frames = m.frames ∧ m'.cells = m.cells := by
  induction hfixed generalizing m answer with
  | nil =>
    cases h
    exact .inr ⟨rfl, rfl, rfl⟩
  | @cons code v codes values hcode _ ih =>
    rcases bind_eq_done h with ⟨e, hfirst, rfl⟩ | ⟨w, m₁, hfirst, hrest⟩
    · rw [eval_still_failed (fun inner => hcode inner (asked m) hcells) hfirst]
      exact .inl rfl
    · obtain ⟨rfl, rfl⟩ := eval_still_done (fun inner => hcode inner (asked m) hcells) hfirst
      rcases bind_eq_done hrest with ⟨e, hfailed, rfl⟩ | ⟨vs, m₂, hvalues, hend⟩
      · rcases ih (m := asked m) hcells hfailed with hcanceled | ⟨hvalue, -⟩
        · cases hcanceled
          exact .inl rfl
        · cases hvalue
      · cases hend
        rcases ih (m := asked m) hcells hvalues with hcanceled | ⟨hvalue, hframes, hsame⟩
        · cases hcanceled
        · cases hvalue
          exact .inr ⟨rfl, hframes, hsame⟩

/-- A quotation is such an expression. -/
theorem fixed_quote (cells : Cells) (mark : Mark) (code : Code) :
    Fixed host site cells (.list mark [.symbol "quote", code]) (.ofCode (code.read cells)) :=
  fun _ m hcells => hcells ▸ quoteForm_eq [code] m

end Eval

-- ====================================================== tours

/-- All visits of an evaluation: the visit to the expression itself, and
the tours of those right inside it. -/
inductive Tour (σ : Type) where
  | node (visit : Visit σ) (inside : List (Tour σ))

namespace Tour

/-- The visit to the whole expression. -/
def visit : Tour σ → Visit σ
  | node v _ => v

/-- A tour that follows the rules and is at most `depth` deep. -/
def Valid (host : Host σ) (site : Site) : Nat → Tour σ → Prop
  | 0, _ => False
  | depth + 1, node v inside =>
    Step host site v (inside.map visit) ∧ ∀ t ∈ inside, t.Valid host site depth

variable {host : Host σ} {site : Site} {depth : Nat}

/-- Visits that have tours each have them all at once. -/
theorem exists_tours {visits : List (Visit σ)}
    (h : ∀ v ∈ visits, ∃ t : Tour σ, t.Valid host site depth ∧ t.visit = v) :
    ∃ tours : List (Tour σ), tours.map visit = visits ∧ ∀ t ∈ tours, t.Valid host site depth := by
  induction visits with
  | nil => exact ⟨[], rfl, List.forall_mem_nil _⟩
  | cons v rest ih =>
    obtain ⟨⟨t, hvalid, hvisit⟩, hrest⟩ := List.forall_mem_cons.1 h
    obtain ⟨tours, htours, hall⟩ := ih hrest
    exact ⟨t :: tours, by rw [List.map_cons, hvisit, htours], List.forall_mem_cons.2 ⟨hvalid, hall⟩⟩

/-- An evaluation has a tour. -/
theorem of_eval {code : Code} {m m' : Machine σ} {answer : Except Failure Value}
    (h : Eval.eval host site depth code m = .done answer m') :
    ∃ t : Tour σ, t.Valid host site depth ∧ t.visit = ⟨code, m, answer, m'⟩ := by
  induction depth generalizing code m answer m' with
  | zero => cases h
  | succ depth ih =>
    obtain ⟨inside, hstep, hmade⟩ := Eval.step_iff.1 h
    obtain ⟨tours, rfl, hvalid⟩ := exists_tours fun v hv => ih (hmade v hv)
    exact ⟨node ⟨code, m, answer, m'⟩ tours, ⟨hstep, hvalid⟩, rfl⟩

/-- A valid tour is one of an evaluation. -/
theorem Valid.eval {t : Tour σ} (h : t.Valid host site depth) :
    Eval.eval host site depth t.visit.code t.visit.before
      = .done t.visit.answer t.visit.after := by
  induction depth generalizing t with
  | zero => exact h.elim
  | succ depth ih =>
    obtain ⟨v, inside⟩ := t
    obtain ⟨hstep, hvalid⟩ := h
    refine Eval.step_iff.2 ⟨inside.map visit, hstep, fun w hw => ?_⟩
    obtain ⟨t, hr, rfl⟩ := List.mem_map.1 hw
    exact ih (hvalid t hr)

/-- The evaluations that end are those that have a valid tour. -/
theorem eval_iff_tour {code : Code} {m m' : Machine σ} {answer : Except Failure Value} :
    Eval.eval host site depth code m = .done answer m'
      ↔ ∃ t : Tour σ, t.Valid host site depth ∧ t.visit = ⟨code, m, answer, m'⟩ := by
  refine ⟨of_eval, ?_⟩
  rintro ⟨t, hvalid, hvisit⟩
  have h := hvalid.eval
  rw [hvisit] at h
  exact h

end Tour

end LispShell
