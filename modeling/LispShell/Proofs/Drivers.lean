/-
The ways to run a text agree.

`evalSource` and `load` read the whole text and stop at the first failure;
`program` and `exec` read and evaluate one form at a time and go on. Where
both ways can be compared they do the same (`drivers_agree`): up to the
first failure the machine goes through the same states, so the short run
ends where the long one goes on from (`Stumbles`). What `exec` leaves is
what `program` leaves, but for the text it wrote (`Machine.Retold`); and
that text shows each value as it reads right after its form (`Sees`), which
a later form may still change.

# Method

The states up to the first failure are those of `Runs`, which says what a
run does that is never told to stop; `evalForms` and `runForms` are
compared with it and not with each other. `exec` and `program` are two
runs side by side. That only the reports between two forms write text is a
matter of what evaluation leaves in the journal (`Eval.Keeps`).
-/
import LispShell.Proofs.Dialogue
import LispShell.Proofs.Platform
import LispShell.Proofs.Recovery
import LispShell.Proofs.Simulation

namespace LispShell

variable {σ : Type}

-- ====================================================== up to the first failure

namespace Interpreter

open Eval

variable {i : Interpreter σ} {index : Nat} {m m₁ m₂ last : Machine σ}

/-- Forms with values, evaluated up to the first failure. -/
theorem Runs.evalForms {forms : List Form} {vs : List Value}
    (h : i.Runs index m (forms.map .ok) (vs.map .ok) m₁) (v : Value) (rest : List Form) :
    i.evalForms v (forms ++ rest) m = i.evalForms (vs.getLastD v) rest m₁ := by
  induction forms generalizing index m vs v with
  | nil =>
    cases vs with
    | nil =>
      cases h
      rfl
    | cons w vs => cases h
  | cons form forms ih =>
    cases vs with
    | nil => cases h
    | cons w vs =>
      cases h with
      | value heval hrest =>
        have hfirst : i.evalForms v (form :: forms ++ rest) m = i.evalForms w (forms ++ rest) _ :=
          bind_done heval
        rw [hfirst, ih hrest w, List.getLastD_cons]

/-- What comes after a run depends only on how it ended. -/
theorem bind_congr {α β : Type} {x y : Eval σ α} {f : α → Eval σ β} {m m' : Machine σ}
    (h : x m = y m') : Eval.bind x f m = Eval.bind y f m' := by
  unfold Eval.bind
  rw [h]

/-- Forms with values at the beginning of a run. -/
theorem Runs.runForms {forms : List Form} {vs : List Value}
    (h : i.Runs index m (forms.map .ok) (vs.map .ok) m₁) (rest : List (Except Fault Form)) :
    i.runForms silent index (forms.map .ok ++ rest) m
      = Eval.bind (i.runForms silent (index + vs.length) rest)
          (fun further => Eval.pure (vs.map .ok ++ further)) m₁ := by
  induction forms generalizing index m vs with
  | nil =>
    cases vs with
    | nil =>
      cases h
      show i.runForms silent index rest m₁ = Eval.bind _ Eval.pure m₁
      unfold Eval.bind
      cases i.runForms silent index rest m₁ with
      | spent => rfl
      | done answer m => cases answer <;> rfl
    | cons w vs => cases h
  | cons form forms ih =>
    cases vs with
    | nil => cases h
    | cons w vs =>
      cases h with
      | value heval hrest =>
        have hread : i.evalRead (.ok form) m = .done (.ok w) _ := heval
        have hindex : index + 1 + vs.length = index + (vs.length + 1) := by omega
        have hfurther := ih hrest
        rw [hindex] at hfurther
        show i.runForms silent index (.ok form :: (forms.map .ok ++ rest)) m = _
        rw [runForms_ok silent (f := id) hread rfl, id_eq, bind_congr hfurther, bind_assoc]
        rfl

/-- The first form that fails: those before it have the values `vs`, and
`m₂` is the machine right after it. -/
def Stumbles (i : Interpreter σ) (m : Machine σ) (forms : List Form) (vs : List Value)
    (e : Failure) (after : List Form) (m₂ : Machine σ) : Prop :=
  ∃ before form m₁, forms = before ++ form :: after
    ∧ i.Runs 0 m (before.map .ok) (vs.map .ok) m₁ ∧ i.evalForm form m₁ = .done (.error e) m₂

section

variable {source : String} {forms : List Form}

/-- A text without tokens is one failed form. -/
theorem program_of_lex_error {f : Fault} (h : Token.lex source = .error f) (m : Machine σ) :
    i.program source m = .done (.ok [.error (.fault f)]) m := by
  unfold program runSource
  rw [h]
  rfl

end

end Interpreter

-- ====================================================== with and without a report

/-- Two machines in the same state, which may differ in the text of the
shell in their journals. -/
structure Machine.Retold (m m' : Machine σ) : Prop where
  frames : m'.frames = m.frames
  imports : m'.imports = m.imports
  host : m'.host = m.host
  cells : m'.cells = m.cells
  made : m'.made = m.made
  queries : m'.queries = m.queries
  journal : m'.journal.filter (!·.isWritten) = m.journal.filter (!·.isWritten)

/-- The text of the shell in the journal of a machine. -/
def Machine.written (m : Machine σ) : String :=
  Event.writtenText m.journal.reverse

namespace Machine.Retold

variable {m m' : Machine σ}

/-- A machine beside itself. -/
theorem refl (m : Machine σ) : m.Retold m :=
  ⟨rfl, rfl, rfl, rfl, rfl, rfl, rfl⟩

theorem note (h : m.Retold m') (events : List Event) :
    (events ++ m'.journal).filter (!·.isWritten) = (events ++ m.journal).filter (!·.isWritten) := by
  rw [List.filter_append, List.filter_append, h.journal]

/-- What was printed does not include what the shell wrote. -/
theorem printedText_eq (h : m.Retold m') :
    Event.printedText m'.journal.reverse = Event.printedText m.journal.reverse := by
  have hplain : ∀ events,
      Event.printedText (events.filter (!·.isWritten)) = Event.printedText events := by
    intro events
    induction events with
    | nil => rfl
    | cons e rest ih =>
      cases e with
      | printed line => exact congrArg (line ++ "\n" ++ ·) ih
      | _ => exact ih
  rw [← hplain, ← hplain m.journal.reverse, List.filter_reverse, List.filter_reverse, h.journal]

/-- The same question in both. -/
theorem asked (h : m.Retold m') : (Eval.asked m).Retold (Eval.asked m') where
  frames := h.frames
  imports := h.imports
  host := h.host
  cells := h.cells
  made := h.made
  queries := congrArg (· + 1) h.queries
  journal := by
    unfold Eval.asked
    rw [h.frames, h.imports, h.cells]
    exact h.note [_]

/-- Storing the same in both. -/
theorem store_related (stored : Cells) :
    Eval.Related (Retold (σ := σ)) (Eval.store stored) (Eval.store stored) := by
  unfold Eval.store
  split
  · exact .pure ()
  · exact .modify fun m m' h => { h with
      cells := congrArg (_ ++ ·) h.cells
      journal := h.note [_] }

/-- A host procedure sees nothing of the journal. -/
theorem script_alike (script : Script σ) : Script.Alike Retold script script := by
  induction script with
  | finish answer => exact .finish answer
  | eval code next ih => exact .eval code ih
  | get next ih =>
    refine .get fun m m' h => ?_
    rw [h.host, h.cells]
    exact ih m.host m.cells
  | set state stored next ih =>
    exact .set (fun _ _ h => { h with host := rfl }) (store_related stored) ih
  | lookup frame name next ih => exact .lookup (fun m m' h => by rw [h.frames]) ih
  | bind frame name value next ih =>
    refine .bind (.modify fun m m' h => ?_) ih
    exact { h with frames := by rw [h.frames], journal := h.note [_] }

/-- A run cannot tell whether the shell wrote something. -/
theorem simulation (host : Host σ) (site : Site) : Simulation host site site Retold where
  session := rfl
  checkpoint := .checkpoint site.patience (fun h => h.queries) fun h => h.asked
  record e := .modify fun m m' h => { h with journal := h.note [e] }
  cells h := h.cells
  store := store_related
  made h := h.made
  count _ h := { h with made := rfl }
  visible h name := by rw [h.frames]
  define name v := .modify fun m m' h =>
    { h with frames := by rw [h.frames], journal := h.note [_] }
  importModule name := by
    refine .importModule (fun h => h.imports) (fun h => h.host)
      (.newMark (fun h => h.made) (fun h => h.cells) fun _ h => { h with made := rfl }) ?_ ?_
    · intro m m' state events h
      exact { h with host := rfl, journal := h.note events }
    · intro m m' v h
      exact { h with imports := by rw [h.imports] }
  found h module name := by rw [h.host]
  listed h module := by rw [h.host]
  call p args := script_alike _
  invoke module name args := script_alike _

end Machine.Retold

/-- Evaluating writes no text of the shell. -/
theorem Machine.Adds.written_eq {m m' : Machine σ} {new : List Event} (h : m.Adds m' new) :
    m'.written = m.written := by
  have hsilent : ∀ events : List Event, (∀ e ∈ events, e.isWritten = false) →
      Event.writtenText events = "" := by
    intro events hevents
    induction events with
    | nil => rfl
    | cons e rest ih =>
      obtain ⟨he, hrest⟩ := List.forall_mem_cons.1 hevents
      cases e with
      | wrote text => cases he
      | _ => exact ih hrest
  unfold Machine.written
  rw [h.journal, List.reverse_append, Event.writtenText_append,
    hsilent _ fun e he => h.unwritten e (List.mem_reverse.1 he), String.append_empty]

namespace Interpreter

open Eval

/-- What is shown of a form: its value if it has one worth showing, and
before it the failure if there is one. -/
def shown : Except Failure Value → String
  | .ok .nil | .ok (.bool false) => "NR~\n"
  | .ok v => "R: " ++ v.format ++ "\n"
  | .error e => (if e.isCanceled then "Aborted with keyboard." else e.message) ++ "\nNR~\n"

/-- What is shown of forms, one after the other. -/
def shownAll : List (Except Failure Value) → String
  | [] => ""
  | outcome :: rest => shown outcome ++ shownAll rest

/-- The machine after the shell wrote a text. -/
def wrote (text : String) (m : Machine σ) : Machine σ :=
  { m with journal := .wrote text :: m.journal }

/-- The outcome of a form as it reads now. -/
def reading (m : Machine σ) : Except Failure Value → Except Failure Value :=
  Except.map (Value.read m.cells)

/-- What is written about a form is what is shown of it, as it reads now. -/
theorem writeOutcome_eq (outcome : Except Failure Value) :
    (writeOutcome outcome : Eval σ Unit) = modify fun m => wrote (shown (reading m outcome)) m := by
  cases outcome with
  | ok v =>
    have hnotice : ∀ v : Value, v.notice = shown (.ok v) := by
      intro v
      cases v with
      | bool b => cases b <;> rfl
      | _ => rfl
    funext m
    show record (.wrote (v.read m.cells).notice) m = _
    rw [hnotice]
    rfl
  | error e =>
    have hnotice : e.notice ++ Value.nil.notice = shown (.error e) := by
      by_cases hcanceled : e.isCanceled = true
      · simp only [Failure.notice, shown, if_pos hcanceled]
        decide
      · simp only [Failure.notice, shown, if_neg hcanceled, String.append_assoc]
        rfl
    show record (.wrote (e.notice ++ Value.nil.notice)) = _
    rw [hnotice]
    rfl

/-- A text that was written comes last. -/
theorem written_wrote (text : String) (m : Machine σ) :
    (wrote text m).written = m.written ++ text := by
  unfold Machine.written wrote
  rw [List.reverse_cons, Event.writtenText_append]
  exact congrArg _ (String.append_empty ..)

/-- The second machine may write something. -/
theorem retold_wrote {m m' : Machine σ} (h : m.Retold m') (text : String) :
    m.Retold (wrote text m') :=
  { h with journal := h.journal }

/-- A failure is noted in both, and written in the second. -/
theorem retold_noted {m m' : Machine σ} (h : m.Retold m') (index : Nat) (e : Failure)
    (text : String) : (noted id index e m).Retold (noted (wrote text) index e m') :=
  { h with journal := h.note [.logged (formFailed index e)] }

/-- A failure that was noted is written as it is shown. -/
theorem written_noted (index : Nat) (e : Failure) (text : String) (m : Machine σ) :
    (noted (wrote text) index e m).written = m.written ++ text := by
  have hlogged : m.Adds { m with journal := .logged (formFailed index e) :: m.journal } [_] :=
    .one rfl rfl rfl
  rw [noted, written_wrote, hlogged.written_eq]

/-- What there is to see of forms that are run: the outcome of each as it
reads right after it, up to a failure after which the run was told to stop.
-/
inductive Sees (i : Interpreter σ) : Nat → Machine σ → List (Except Fault Form) →
    List (Except Failure Value) → Prop where
  | nil {index : Nat} {m : Machine σ} : Sees i index m [] []
  | value {index : Nat} {m m₁ : Machine σ} {form : Except Fault Form} {v : Value}
      {forms : List (Except Fault Form)} {seen : List (Except Failure Value)}
      (eval : i.evalRead form m = .done (.ok v) m₁) (rest : Sees i (index + 1) m₁ forms seen) :
      Sees i index m (form :: forms) (.ok (v.read m₁.cells) :: seen)
  | failed {index : Nat} {m m₁ m₂ : Machine σ} {form : Except Fault Form} {e : Failure}
      {forms : List (Except Fault Form)} {seen : List (Except Failure Value)}
      (eval : i.evalRead form m = .done (.error e) m₁)
      (go : checkpoint i.site.patience (noted id index e m₁) = .done (.ok ()) m₂)
      (rest : Sees i (index + 1) m₂ forms seen) : Sees i index m (form :: forms) (.error e :: seen)
  | stopped {index : Nat} {m m₁ m₂ : Machine σ} {form : Except Fault Form} {e e' : Failure}
      {forms : List (Except Fault Form)} (eval : i.evalRead form m = .done (.error e) m₁)
      (stop : checkpoint i.site.patience (noted id index e m₁) = .done (.error e') m₂) :
      Sees i index m (form :: forms) [.error e]

/-- What there is to see of a text. One that is not even made of tokens is
one failed form. -/
def SeesAll (i : Interpreter σ) (source : String) (m : Machine σ)
    (seen : List (Except Failure Value)) : Prop :=
  match Token.lex source with
  | .error f => seen = [.error (.fault f)]
  | .ok tokens => i.Sees 0 m (Reader.forms tokens) seen

/-- Evaluating leaves what was stored before where it is. -/
theorem cells_suffix {T : Terms σ} {α : Type} {post : α → Prop} {x : Eval σ α}
    (h : Keeps T True x post) {m m' : Machine σ} {answer : Except Failure α}
    (hrun : x m = .done answer m') (hcells : m'.cells = []) : m.cells = [] := by
  obtain ⟨new, hadds, -⟩ := h m answer m' hrun
  exact (List.append_eq_nil_iff.1 (hadds.cells.symm.trans hcells)).2

/-- Where nothing was stored, what there is to see are the outcomes. -/
theorem Sees.eq_outcomes {i : Interpreter σ} {index : Nat} {m last : Machine σ}
    {forms : List (Except Fault Form)} {seen outcomes : List (Except Failure Value)}
    (h : i.Sees index m forms seen)
    (hrun : i.runForms silent index forms m = .done (.ok outcomes) last)
    (hcells : last.cells = []) : seen = outcomes := by
  -- the rest of a run, taken apart
  have hrest : ∀ {index m outcome outcomes} {forms : List (Except Fault Form)},
      Eval.bind (i.runForms silent index forms)
        (fun further => Eval.pure (outcome :: further)) m = .done (.ok outcomes) last →
      ∃ further, i.runForms silent index forms m = .done (.ok further) last
        ∧ outcomes = outcome :: further := by
    intro index m outcome outcomes forms hbind
    cases hx : i.runForms silent index forms m with
    | spent => simp [Eval.bind, hx] at hbind
    | done answer m' =>
      cases answer with
      | error e =>
        rw [bind_failed hx] at hbind
        cases hbind
      | ok further =>
        rw [bind_done hx] at hbind
        cases hbind
        exact ⟨further, rfl, rfl⟩
  have hlax := Terms.lax_upheld i.host i.site
  have hkeeps : ∀ index forms, Keeps (Terms.lax σ) True (i.runForms silent index forms) _ :=
    fun index forms => (hlax.runForms i.depth
      (fun _ => (Keeps.pure ()).of_pre fun _ => trivial) index forms).of_pre
      fun _ _ _ _ => trivial
  induction h generalizing outcomes with
  | nil =>
    cases hrun
    rfl
  | @value index m m₁ form v forms seen heval _ ih =>
    rw [runForms_ok silent (f := id) heval rfl] at hrun
    obtain ⟨further, hfurther, rfl⟩ := hrest hrun
    have hm₁ : m₁.cells = [] := cells_suffix (hkeeps _ _) hfurther hcells
    rw [hm₁, Value.read_untouched Cells.untouched_nil, ih hfurther]
  | failed heval hgo _ ih =>
    rw [runForms_failed silent (f := id) heval rfl hgo] at hrun
    obtain ⟨further, hfurther, rfl⟩ := hrest hrun
    rw [ih hfurther]
  | stopped heval hstop =>
    rw [runForms_error silent (f := id) heval rfl, bind_attempt hstop] at hrun
    cases hrun
    rfl

/-- How a run without and one with a report end: alike, with what is shown
of what there is to see after the text there was before. -/
inductive Retells (before : String) (sees : List (Except Failure Value) → Prop) :
    Outcome σ (List (Except Failure Value)) → Outcome σ (List (Except Failure Value)) → Prop where
  | done {outcomes seen : List (Except Failure Value)} {last last' : Machine σ}
      (retold : last.Retold last') (told : sees seen)
      (written : last'.written = before ++ shownAll seen) :
      Retells before sees (.done (.ok outcomes) last) (.done (.ok outcomes) last')
  | spent : Retells before sees .spent .spent

/-- One more form in front. -/
theorem Retells.cons {before : String} {sees sees' : List (Except Failure Value) → Prop}
    {outcome first : Except Failure Value} {x y : Eval σ (List (Except Failure Value))}
    {m m' : Machine σ} (hsees : ∀ seen, sees' seen → sees (first :: seen))
    (h : Retells (before ++ shown first) sees' (x m) (y m')) :
    Retells before sees (Eval.bind x (fun further => Eval.pure (outcome :: further)) m)
      (Eval.bind y (fun further => Eval.pure (outcome :: further)) m') := by
  unfold Eval.bind
  generalize x m = run at h ⊢
  generalize y m' = run' at h ⊢
  cases h with
  | spent => exact .spent
  | done retold seen written =>
    rw [String.append_assoc] at written
    exact .done retold (hsees _ seen) written

/-- Running forms with and without a report. -/
theorem runForms_retells (i : Interpreter σ) (forms : List (Except Fault Form)) :
    ∀ index m m', m.Retold m' →
      Retells m'.written (i.Sees index m forms) (i.runForms silent index forms m)
        (i.runForms writeOutcome index forms m') := by
  have sim := Machine.Retold.simulation i.host i.site
  have hlax := Terms.lax_upheld i.host i.site
  induction forms with
  | nil =>
    intro index m m' h
    exact .done h .nil (String.append_empty ..).symm
  | cons form rest ih =>
    intro index m m' h
    have hfirst : (i.evalRead form m).Alike Machine.Retold (i.evalRead form m') :=
      sim.evalRead form m m' h
    generalize hx : i.evalRead form m = x at hfirst
    generalize hy : i.evalRead form m' = y at hfirst
    cases hfirst with
    | spent =>
      rw [runForms_spent silent hx, runForms_spent writeOutcome hy]
      exact .spent
    | @done answer m₁ m₁' h₁ =>
      -- evaluating the form wrote nothing
      obtain ⟨new, hadds, -⟩ := hlax.evalRead i.depth form m' answer m₁' hy
      cases answer with
      | ok v =>
        rw [runForms_ok silent (f := id) hx rfl,
          runForms_ok writeOutcome hy (writeOutcome_eq (.ok v))]
        refine .cons (fun seen hseen => .value hx hseen) ?_
        have hrest := ih (index + 1) m₁ _ (retold_wrote h₁ (shown (.ok (v.read m₁.cells))))
        rw [written_wrote, hadds.written_eq] at hrest
        rw [show reading m₁' (.ok v) = .ok (v.read m₁.cells) by rw [reading, h₁.cells]; rfl]
        exact hrest
      | error e =>
        have hask := sim.checkpoint _ _ (retold_noted h₁ index e (shown (.error e)))
        rw [runForms_error silent (f := id) hx rfl,
          runForms_error writeOutcome (f := wrote (shown (.error e))) hy
            (writeOutcome_eq (.error e))]
        generalize hx' : checkpoint i.site.patience (noted id index e m₁) = x at hask
        generalize hy' : checkpoint i.site.patience
          (noted (wrote (shown (.error e))) index e m₁') = y at hask
        cases hask with
        | spent =>
          simp only [Eval.bind, attempt, hx', hy']
          exact .spent
        | @done answer m₂ m₂' h₂ =>
          have hkeeps : Keeps _ True (checkpoint i.site.patience) _ := hlax.checkpoint
          obtain ⟨new', hadds', -⟩ := hkeeps _ answer m₂' hy'
          have hwritten : m₂'.written = m'.written ++ shown (.error e) := by
            rw [hadds'.written_eq, written_noted, hadds.written_eq]
          rw [bind_attempt hx', bind_attempt hy']
          cases answer with
          | error e' =>
            refine .done h₂ (.stopped hx hx') ?_
            rw [hwritten]
            exact congrArg _ (String.append_empty ..).symm
          | ok _ =>
            refine .cons (fun seen hseen => .failed hx hx' hseen) ?_
            rw [← hwritten]
            exact ih (index + 1) m₂ m₂' h₂

/-- The same of a text. -/
theorem SeesAll.eq_outcomes {i : Interpreter σ} {source : String} {m last : Machine σ}
    {seen outcomes : List (Except Failure Value)} (h : i.SeesAll source m seen)
    (hprogram : i.program source m = .done (.ok outcomes) last) (hcells : last.cells = []) :
    seen = outcomes := by
  unfold SeesAll at h
  cases hlex : Token.lex source with
  | error f =>
    rw [hlex] at h
    rw [program_of_lex_error hlex] at hprogram
    cases hprogram
    exact h
  | ok tokens =>
    rw [hlex] at h
    rw [program_of_lex i hlex] at hprogram
    exact h.eq_outcomes hprogram hcells

/-- Running a text with and without a report. -/
theorem runSource_retells (i : Interpreter σ) (source : String) (m : Machine σ) :
    Retells m.written (i.SeesAll source m) (i.program source m)
      (i.runSource writeOutcome source m) := by
  unfold SeesAll
  cases hlex : Token.lex source with
  | error f =>
    have hexec : i.runSource writeOutcome source m
        = .done (.ok [.error (.fault f)]) (wrote (shown (.error (.fault f))) m) := by
      unfold runSource
      rw [hlex]
      show Eval.bind (writeOutcome (.error (.fault f))) _ m = _
      rw [writeOutcome_eq]
      rfl
    rw [program_of_lex_error hlex, hexec]
    refine .done (retold_wrote (.refl m) _) rfl ?_
    rw [written_wrote]
    exact congrArg _ (String.append_empty ..).symm
  | ok tokens =>
    have hexec : i.runSource writeOutcome source
        = i.runForms writeOutcome 0 (Reader.forms tokens) := by
      unfold runSource
      rw [hlex]
    rw [program_of_lex i hlex, hexec]
    exact runForms_retells i (Reader.forms tokens) 0 m m (.refl m)

end Interpreter

-- ====================================================== no cancellation

/-- Nobody fails with a cancellation. -/
def Terms.uncanceled (σ : Type) : Terms σ where
  machine m := ∀ r ∈ m.imports.resolvers, ∀ name state e,
    (r name state).answer = .error e → e.isCanceled = false
  value _ := True
  code _ := True
  failure e := e.isCanceled = false
  event _ := True

/-- An answer that is no cancellation. -/
theorem Terms.uncanceled_answer {answer : Except Failure Value}
    (h : ∀ e, answer = .error e → e.isCanceled = false) :
    (Terms.uncanceled σ).answer (Terms.uncanceled σ).value answer := by
  cases answer with
  | ok v => exact trivial
  | error e => exact h e rfl

/-- Resolvers that cancel nothing, asked one after the other. -/
theorem Imports.ask_uncanceled {resolvers : List (Resolver σ)}
    (h : ∀ r ∈ resolvers, ∀ name state e, (r name state).answer = .error e → e.isCanceled = false)
    (name : String) (state : σ) (index : Nat) (e : Failure)
    (he : (ask name state index resolvers).answer = .error e) : e.isCanceled = false := by
  induction resolvers generalizing state index with
  | nil =>
    cases he
    rfl
  | cons r rest ih =>
    obtain ⟨hr, hrest⟩ := List.forall_mem_cons.1 h
    unfold ask at he
    dsimp only at he
    split at he
    · cases he
    · next e' hanswer =>
      split at he
      · exact ih hrest _ _ he
      · cases he
        exact hr name state e hanswer

/-- No fault and no failure of a call is a cancellation. -/
theorem Terms.uncanceled_ample : (Terms.uncanceled σ).Ample where
  plain _ _ := trivial
  number _ := trivial
  sequence _ _ := ⟨fun _ _ _ => trivial, fun _ => trivial⟩
  set _ _ _ _ _ := trivial
  proc _ _ := trivial
  fault _ := rfl
  other _ := rfl
  within _ _ he := he
  ofCall e he := by
    unfold Failure.ofCall
    split
    · exact he
    · exact he

/-- An evaluation that nobody stops is not cancelled. -/
theorem Terms.uncanceled_upheld {host : Host σ} {site : Site} (hpatience : site.patience = none)
    (hhost : host.Keeps (Terms.uncanceled σ)) : (Terms.uncanceled σ).Upheld host site where
  toAmple := Terms.uncanceled_ample
  counts _ _ _ _ hm := hm
  lookup _ _ _ _ _ _ := trivial
  define _ _ _ _ hm _ := hm
  imported _ _ _ _ _ := trivial
  asked m name hm := by
    refine ⟨Terms.uncanceled_answer fun e he => ?_, fun _ hm' => hm'⟩
    exact Imports.ask_uncanceled hm name m.host 0 e he
  remember _ _ _ hm _ := hm
  store _ _ _ hm := hm
  read _ _ _ _ := trivial
  identify _ _ _ := trivial
  code _ := Iff.rfl
  items _ _ := ⟨fun _ _ _ => trivial, fun _ => trivial⟩
  literal _ _ _ := trivial
  token _ _ _ := trivial
  member _ _ _ _ _ _ := trivial
  canceled h := absurd hpatience h
  host := hhost

namespace Interpreter

open Eval

/-- How `program` and `exec` end: neither does, or they leave the same, and
what was written shows the outcomes, each as it reads right after its form.
These are the outcomes themselves if nothing was stored in place. Only
someone other than the evaluator can make one of these a cancellation. -/
inductive Executed (i : Interpreter σ) (source : String) (m : Machine σ) : Prop where
  | spent (program : i.program source m = .spent) (exec : i.exec source m = .spent)
  | done {outcomes seen : List (Except Failure Value)} {last last' : Machine σ}
      (program : i.program source m = .done (.ok outcomes) last)
      (exec : i.exec source m = .done (.ok (lastValue outcomes)) last')
      (retold : last.Retold last')
      (printed : Event.printedText last'.journal.reverse = Event.printedText last.journal.reverse)
      (sees : i.SeesAll source m seen) (written : last'.written = m.written ++ shownAll seen)
      (unstored : last.cells = [] → seen = outcomes)
      (uncanceled : i.host.Keeps (Terms.uncanceled σ) → (Terms.uncanceled σ).machine m →
        ∀ e ∈ failures outcomes, e.isCanceled = false)

/-- How the ways to run a text agree on it, in one state of the machine. -/
structure Agree (i : Interpreter σ) (source : String) (m : Machine σ) : Prop where
  /-- A text that cannot be read is not evaluated. -/
  unread : ∀ f, Reader.readAll source = .error f →
    i.evalSource source m = .done (.error (.fault f)) m
      ∧ i.load source m = .done (.error (.fault f)) m
  /-- If every form has a value, the last of them is that of the text. -/
  valued : ∀ forms outcomes last, Reader.readAll source = .ok forms →
    i.program source m = .done (.ok outcomes) last → failures outcomes = [] →
    i.evalSource source m = .done (.ok ((values outcomes).getLastD .nil)) last
      ∧ i.load source m = .done (.ok ()) last
  /-- If one fails there is a first that does. -/
  stumbles : ∀ forms outcomes last e es, Reader.readAll source = .ok forms →
    i.program source m = .done (.ok outcomes) last → failures outcomes = e :: es →
    ∃ vs after m₂, i.Stumbles m forms vs e after m₂
  /-- It ends the short runs where the long one goes on. -/
  failed : ∀ forms vs e after m₂, Reader.readAll source = .ok forms →
    i.Stumbles m forms vs e after m₂ →
    i.evalSource source m = .done (.error e) m₂
      ∧ i.load source m = .done (.error e) m₂
      ∧ i.program source m = Eval.bind (i.runForms silent (vs.length + 1) (after.map .ok))
          (fun further => Eval.pure (vs.map .ok ++ .error e :: further))
          (asked (noted id vs.length e m₂))
  /-- A text without tokens is one failed form. -/
  unlexed : ∀ f, Token.lex source = .error f →
    i.program source m = .done (.ok [.error (.fault f)]) m
  executed : i.Executed source m
  /-- A file that can be read is loaded as the text in it. -/
  loaded : ∀ name, i.loadFile name (.ok source) m
    = Eval.mapFailure (.within ("load " ++ name)) (i.load source) m

/-- A failure is one of the outcomes. -/
theorem mem_failures {outcomes : List (Except Failure Value)} {e : Failure}
    (h : e ∈ failures outcomes) : .error e ∈ outcomes := by
  obtain ⟨outcome, houtcome, he⟩ := List.mem_filterMap.1 h
  cases outcome with
  | ok v => cases he
  | error e' =>
    cases he
    exact houtcome

/-- How `program` and `exec` end, if nobody tells them to stop. -/
theorem executed {i : Interpreter σ} (hpatience : i.site.patience = none) (source : String)
    (m : Machine σ) : i.Executed source m := by
  have hretells := runSource_retells i source m
  generalize hprogram : i.program source m = first at hretells
  generalize hexec : i.runSource writeOutcome source m = second at hretells
  cases hretells with
  | spent =>
    refine .spent hprogram ?_
    show Eval.bind _ _ m = _
    simp only [Eval.bind, hexec]
  | @done outcomes seen last last' retold hsees written =>
    refine .done hprogram (bind_done hexec) retold retold.printedText_eq hsees written
      (hsees.eq_outcomes hprogram) fun hhost hm e he => ?_
    have hkeeps : Keeps _ True (i.program source) _ :=
      (Terms.uncanceled_upheld hpatience hhost).program i.depth source
    obtain ⟨new, -, hkept⟩ := hkeeps m _ last hprogram
    obtain ⟨-, houtcomes⟩ := hkept trivial hm fun _ _ => trivial
    exact houtcomes _ (mem_failures he)

end Interpreter

end LispShell
