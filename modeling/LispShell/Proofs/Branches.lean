/-
`cond` with quoted branches is `if`.

`if` is a special form that evaluates one of its parts. `cond` is a
procedure: its arguments are evaluated, and the one it picks is evaluated
once more where `cond` was called. With quoted branches the first of these
evaluations gives back the branch as it is written and reads then, so both
evaluate the test and then the same branch (`Eval.branch`), which does not
have to be read before (`Eval.eval_read`). What differs is what happened
before: the machine was asked more often, and a call was noted. The machines
are the same but for that (`Machine.SameSince`), so test and branch go the
same way on both sides and leave machines that are the same but for it
again. At the end of a call there are two more things: a failure of the
branch is reported, and a new value gets an identity. The latter has no
effect, because a value that an evaluation gives has its identity as soon as
those that are bound and imported have theirs (`Eval.eval_settles`).
-/
import LispShell.Proofs.Cancellation
import LispShell.Proofs.Identities
import LispShell.Proofs.Reading

namespace LispShell

variable {σ : Type}

-- ====================================================== the same since then

/-- Machines that are the same, and to which the same happened since their
journals were the given ones. -/
structure Machine.SameSince (past past' : List Event) (m m' : Machine σ) : Prop where
  frames : m'.frames = m.frames
  imports : m'.imports = m.imports
  host : m'.host = m.host
  cells : m'.cells = m.cells
  made : m'.made = m.made
  journal : ∃ new, m.journal = new ++ past ∧ m'.journal = new ++ past'

/-- A relation between machines that are the same but for what happened
before and how often they were asked, and that lasts if both change alike. -/
structure Machine.Likeness (R : Machine σ → Machine σ → Prop) : Prop where
  frames : ∀ {m m'}, R m m' → m'.frames = m.frames
  imports : ∀ {m m'}, R m m' → m'.imports = m.imports
  host : ∀ {m m'}, R m m' → m'.host = m.host
  cells : ∀ {m m'}, R m m' → m'.cells = m.cells
  made : ∀ {m m'}, R m m' → m'.made = m.made
  change : ∀ {m m'}, R m m' → ∀ frames imports host cells made events,
    R { m with frames, imports, host, cells, made, journal := events ++ m.journal }
      { m' with frames, imports, host, cells, made, journal := events ++ m'.journal }

namespace Machine.Likeness

variable {R : Machine σ → Machine σ → Prop} {m m' : Machine σ}

theorem note (h : Likeness R) (hm : R m m') (events : List Event) :
    R { m with journal := events ++ m.journal } { m' with journal := events ++ m'.journal } := by
  rw [h.frames hm, h.imports hm, h.host hm, h.cells hm, h.made hm]
  exact h.change hm _ _ _ _ _ events

/-- The same count is set. -/
theorem count (h : Likeness R) (hm : R m m') (n : Nat) :
    R { m with made := n } { m' with made := n } := by
  rw [h.frames hm, h.imports hm, h.host hm, h.cells hm]
  exact h.change hm _ _ _ _ n []

/-- The same is bound. -/
theorem define (h : Likeness R) (frame : FrameId) (name : String) (v : Value) :
    Eval.Related R (Eval.define frame name v) (Eval.define frame name v) := by
  refine .modify fun m m' hm => ?_
  rw [h.frames hm, h.imports hm, h.host hm, h.cells hm, h.made hm]
  exact h.change hm _ _ _ _ _ [.bound frame name v]

/-- The same is stored. -/
theorem store (h : Likeness R) (stored : Cells) :
    Eval.Related R (Eval.store stored) (Eval.store stored) := by
  unfold Eval.store
  split
  · exact .pure ()
  · refine .modify fun m m' hm => ?_
    rw [h.frames hm, h.imports hm, h.host hm, h.cells hm, h.made hm]
    exact h.change hm _ _ _ _ _ [.stored _]

/-- A script does the same on machines that are alike. -/
theorem script (h : Likeness R) (script : Script σ) : Script.Alike R script script := by
  induction script with
  | finish answer => exact .finish answer
  | eval code next ih => exact .eval code ih
  | get next ih =>
    refine .get fun m m' hm => ?_
    rw [h.host hm, h.cells hm]
    exact ih m.host m.cells
  | set state stored next ih =>
    refine .set (fun m m' hm => ?_) (h.store stored) ih
    rw [h.frames hm, h.imports hm, h.cells hm, h.made hm]
    exact h.change hm _ _ state _ _ []
  | lookup frame name next ih => exact .lookup (fun m m' hm => by rw [h.frames hm]) ih
  | bind frame name value next ih => exact .bind (h.define frame name value) ih

/-- An evaluation does not see what happened before, except for how often it
may still ask. -/
theorem simulation (h : Likeness R) (host : Host σ) {site : Site}
    (hcheckpoint : Eval.Related R (Eval.checkpoint site.patience) (Eval.checkpoint site.patience)) :
    Simulation host site site R where
  session := rfl
  checkpoint := hcheckpoint
  record e := .modify fun m m' hm => h.note hm [e]
  cells hm := h.cells hm
  store := h.store
  made hm := h.made hm
  count n hm := h.count hm n
  visible hm name := by rw [h.frames hm]
  define name v := h.define site.frame name v
  importModule name := by
    refine .importModule h.imports h.host (.newMark h.made h.cells fun n hm => h.count hm n) ?_ ?_
    · intro m m' state events hm
      rw [h.frames hm, h.imports hm, h.cells hm, h.made hm]
      exact h.change hm _ _ state _ _ events
    · intro m m' v hm
      rw [h.frames hm, h.imports hm, h.host hm, h.cells hm, h.made hm]
      exact h.change hm _ _ _ _ _ []
  found hm module name := by rw [h.host hm]
  listed hm module := by rw [h.host hm]
  call p args := h.script _
  invoke module name args := h.script _

end Machine.Likeness

namespace Machine.SameSince

/-- To be the same since then is such a relation. -/
theorem likeness (past past' : List Event) : @Likeness σ (SameSince past past') where
  frames h := h.frames
  imports h := h.imports
  host h := h.host
  cells h := h.cells
  made h := h.made
  change h _ _ _ _ _ events := by
    obtain ⟨new, hnew, hnew'⟩ := h.journal
    refine ⟨rfl, rfl, rfl, rfl, rfl, events ++ new, ?_, ?_⟩
    · rw [hnew, List.append_assoc]
    · rw [hnew', List.append_assoc]

/-- One more question to both. -/
theorem asked {past past' : List Event} {m m' : Machine σ} (h : SameSince past past' m m') :
    SameSince past past' (Eval.asked m) (Eval.asked m') := by
  have hnote := (likeness past past').note h [.queried m.frames m.imports.imported m.cells]
  obtain ⟨new, hnew, hnew'⟩ := hnote.journal
  have hsame : (Eval.asked m').journal = new ++ past' := by
    show .queried m'.frames m'.imports.imported m'.cells :: m'.journal = new ++ past'
    rw [h.frames, h.imports, h.cells]
    exact hnew'
  exact ⟨h.frames, h.imports, h.host, h.cells, h.made, new, hnew, hsame⟩

/-- Without a limit to how often it may ask, an evaluation does not see what
happened before. -/
theorem simulation (host : Host σ) {site : Site} (hpatience : site.patience = none)
    (past past' : List Event) : Simulation host site site (SameSince past past') := by
  refine (likeness past past').simulation host ?_
  rw [hpatience]
  exact fun m m' h => .done (.ok ()) h.asked

end Machine.SameSince

/-- Machines that show the same: what is bound and imported, what was
stored in it, the state of the host and what was printed. -/
structure Machine.Agree (m m' : Machine σ) : Prop where
  frames : m'.frames = m.frames
  imports : m'.imports = m.imports
  host : m'.host = m.host
  cells : m'.cells = m.cells
  printed : Event.printedText m'.journal.reverse = Event.printedText m.journal.reverse

/-- Machines that show the same and made equally many values. -/
structure Machine.Even (m m' : Machine σ) : Prop extends m.Agree m' where
  made : m'.made = m.made

namespace Machine.Even

variable {m m' : Machine σ}

/-- A machine shows what it shows. -/
theorem refl (m : Machine σ) : m.Even m :=
  ⟨⟨rfl, rfl, rfl, rfl, rfl⟩, rfl⟩

/-- A further event on one side, which prints nothing. -/
theorem behind (h : m.Even m') {e : Event} (he : Event.printedText [e] = "") (queries : Nat) :
    m.Even { m' with journal := e :: m'.journal, queries } := by
  refine { h with printed := ?_ }
  show Event.printedText (e :: m'.journal).reverse = _
  rw [List.reverse_cons, Event.printedText_append, he, String.append_empty, h.printed]

theorem asked (h : m.Even m') : m.Even (Eval.asked m') :=
  h.behind rfl _

theorem noting (h : m.Even m') (p : Proc) (args : List Value) : m.Even (m'.noting p args) :=
  h.behind rfl _

theorem since (h : m.Even m') : SameSince m.journal m'.journal m m' :=
  ⟨h.frames, h.imports, h.host, h.cells, h.made, [], rfl, rfl⟩

/-- If the same happened, they still show the same. -/
theorem of_since {past past' : List Event} (h : SameSince past past' m m')
    (hpast : Event.printedText past'.reverse = Event.printedText past.reverse) : m.Even m' := by
  obtain ⟨new, hnew, hnew'⟩ := h.journal
  refine ⟨⟨h.frames, h.imports, h.host, h.cells, ?_⟩, h.made⟩
  rw [hnew, hnew', List.reverse_append, List.reverse_append, Event.printedText_append,
    Event.printedText_append, hpast]

end Machine.Even

/-- An evaluation goes the same way on machines that show the same. -/
theorem Eval.eval_even (host : Host σ) {site : Site} (hpatience : site.patience = none)
    (depth : Nat) (code : Code) {m m' : Machine σ} (h : m.Even m') :
    (eval host site depth code m).Alike Machine.Even (eval host site depth code m') := by
  have hrun := (Machine.SameSince.simulation host hpatience m.journal m'.journal).eval depth code
    m m' h.since
  exact hrun.mono fun hsince => .of_since hsince h.printed

-- ====================================================== the two forms

/-- The branch that a test picks. -/
def Expr.chosen (test : Value) (yes : Code) (no : Option Code) : Option Code :=
  if test.truthy then some yes else no

/-- An `if` form and a call of `cond` with the same test and the same
branches, which the latter quotes. -/
inductive Expr.Paired (test yes : Code) : Option Code → Code → Code → Prop where
  | two (mark mark' quote : Mark) :
      Paired test yes none (.list mark [.symbol "if", test, yes])
        (.list mark' [.symbol "cond", test, .list quote [.symbol "quote", yes]])
  | three (no : Code) (mark mark' quote quote' : Mark) :
      Paired test yes (some no) (.list mark [.symbol "if", test, yes, no])
        (.list mark' [.symbol "cond", test, .list quote [.symbol "quote", yes],
          .list quote' [.symbol "quote", no]])

namespace Eval

variable {host : Host σ} {site : Site} {depth : Nat} {inner : Inner σ} {test yes : Code}
  {no : Option Code} {ifCode condCode : Code} {m m₁ : Machine σ}

/-- Goes on with a branch; without one the result is `false`. -/
def branch (inner : Inner σ) : Option Code → Eval σ Value
  | some code => inner code
  | none => Eval.pure (.bool false)

/-- Without a limit every question gets a yes. -/
theorem allows_of_none (hpatience : site.patience = none) (m : Machine σ) : site.allows m := by
  intro n hn
  rw [hpatience] at hn
  cases hn

/-- `if` evaluates the test and then the branch. -/
theorem eval_if (hpatience : site.patience = none)
    (hforms : Expr.Paired test yes no ifCode condCode) :
    eval host site (depth + 1) ifCode m
      = Eval.bind (eval host site depth test)
          (fun v m₁ => branch (eval host site depth) (Expr.chosen (v.read m₁.cells) yes no) m₁)
          (asked m) := by
  rw [eval, step_eq, bind_done (checkpoint_of_allows (allows_of_none hpatience m))]
  generalize eval host site depth = inner
  have hif : proceed host site inner ifCode
      = Eval.bind (holds inner test)
          fun b => branch inner (if b then some yes else no) := by
    cases hforms with
    | two =>
      refine congrArg (Eval.bind _) (funext fun b => ?_)
      cases b with
      | true => rfl
      | false => rfl
    | three =>
      refine congrArg (Eval.bind _) (funext fun b => ?_)
      cases b with
      | true => rfl
      | false => rfl
  rw [hif]
  unfold holds
  exact congrFun (bind_assoc ..) _

/-- Code as a value is code again. -/
theorem toCode?_ofCode (code : Code) : (Value.ofCode code).toCode? = some code := by
  cases code <;> rfl

/-- `cond` goes on with a quoted branch. -/
theorem condProcedure_quoted (v : Value) (yes : Code) (no : Option Code) :
    condProcedure inner (v :: .ofCode yes :: (no.map Value.ofCode).toList)
      = branch inner (Expr.chosen v yes no) := by
  unfold Expr.chosen
  by_cases hv : v.truthy = true
  · rw [if_pos hv]
    refine condProcedure_picked ?_
    cases no with
    | none => simp [Value.picked?, hv, toCode?_ofCode]
    | some no => simp [Value.picked?, hv, toCode?_ofCode]
  · rw [if_neg hv]
    cases no with
    | none =>
      unfold condProcedure
      simp only [Option.map_none, Option.toList_none, if_neg hv]
      rfl
    | some no =>
      refine condProcedure_picked ?_
      simp [Value.picked?, hv, toCode?_ofCode]

/-- The machine after it was asked some times. -/
def askedTimes : Nat → Machine σ → Machine σ
  | 0, m => m
  | n + 1, m => askedTimes n (asked m)

/-- Such an expression has its value after one question. -/
theorem eval_fixed (hpatience : site.patience = none) {code : Code} {v : Value}
    (hfixed : proceed host site (eval host site depth) code (asked m) = .done (.ok v) (asked m)) :
    eval host site (depth + 1) code m = .done (.ok v) (asked m) := by
  rw [eval, step_eq, bind_done (checkpoint_of_allows (allows_of_none hpatience m))]
  exact hfixed

/-- And some of them theirs after as many. -/
theorem collect_fixed_eq (hpatience : site.patience = none) {codes : List Code}
    {values : List Value} {cells : Cells} (hcells : m.cells = cells)
    (hfixed : List.Forall₂ (Fixed host site cells) codes values) :
    collect (eval host site (depth + 1)) codes m
      = .done (.ok values) (askedTimes codes.length m) := by
  induction hfixed generalizing m with
  | nil => rfl
  | cons hcode _ ih =>
    exact (bind_done (eval_fixed hpatience (hcode _ (asked m) hcells))).trans
      (bind_done (ih (m := asked m) hcells))

theorem cells_askedTimes (n : Nat) (m : Machine σ) : (askedTimes n m).cells = m.cells := by
  induction n generalizing m with
  | zero => rfl
  | succ n ih => exact ih (asked m)

/-- The arguments of `cond` when it is called, the branches being quoted. -/
def quotedArgs (cells : Cells) (v : Value) (yes : Code) (no : Option Code) : List Value :=
  v.read cells :: .ofCode (yes.read cells) :: (no.map fun code => .ofCode (code.read cells)).toList

/-- Reading the quoted branches once more changes nothing. -/
theorem readAll_quoted (cells : Cells) (v : Value) (yes : Code) (no : Option Code) :
    Value.readAll cells (v :: .ofCode (yes.read cells)
      :: (no.map fun code => Value.ofCode (code.read cells)).toList)
      = quotedArgs cells v yes no := by
  have htwice : ∀ code : Code, (Value.ofCode (code.read cells)).read cells
      = .ofCode (code.read cells) := by
    intro code
    rw [Value.read_ofCode, Expr.read_read cells.covers_refl]
  cases no with
  | none => simp [quotedArgs, htwice]
  | some no => simp [quotedArgs, htwice]

/-- `cond` evaluates the test and then, in a call, the branch. -/
theorem eval_cond (hpatience : site.patience = none)
    (hcond : m.frames.lookup site.frame "cond" = some (.proc (.standard .cond)))
    (hforms : Expr.Paired test yes no ifCode condCode) :
    eval host site (depth + 1) condCode m
      = Eval.bind (eval host site depth test)
          (fun v m₁ => call host site (eval host site depth) (.standard .cond)
            (quotedArgs m₁.cells v yes no)
            (askedTimes (no.toList.length + 1) m₁)) (asked (asked m)) := by
  rw [eval, step_eq, bind_done (checkpoint_of_allows (allows_of_none hpatience m))]
  -- with or without an `else`, the branches are quotations after the test
  obtain ⟨quotes, happly, hquotes, hlength⟩ : ∃ quotes : List Code,
      proceed host site (eval host site depth) condCode
        = apply host site (eval host site depth) (.symbol "cond") (test :: quotes)
      ∧ (∀ cells, List.Forall₂ (Fixed host site cells) quotes (.ofCode (yes.read cells)
          :: (no.map fun code => Value.ofCode (code.read cells)).toList))
      ∧ quotes.length = no.toList.length + 1 := by
    cases hforms with
    | two _ _ quote =>
      exact ⟨_, rfl, fun cells => .cons (fixed_quote cells quote yes) .nil, rfl⟩
    | three no _ _ quote quote' =>
      exact ⟨_, rfl, fun cells => .cons (fixed_quote cells quote yes)
        (.cons (fixed_quote cells quote' no) .nil), rfl⟩
  rw [happly]
  cases depth with
  | zero => rfl
  | succ depth =>
    have hvisible : (asked (asked m)).frames.lookup site.frame "cond" = _ := hcond
    have hhead : eval host site (depth + 1) (.symbol "cond") (asked m)
        = .done (.ok (.proc (.standard .cond))) (asked (asked m)) :=
      eval_fixed hpatience (proceed_symbol rfl hvisible _)
    refine (bind_done hhead).trans ?_
    show Eval.bind (Eval.bind (eval host site (depth + 1) test) fun v =>
      Eval.bind (collect (eval host site (depth + 1)) quotes) fun vs => Eval.pure (v :: vs)) _ _ = _
    rw [bind_assoc]
    refine congrFun (congrArg (Eval.bind _) (funext fun v => ?_)) _
    rw [bind_assoc]
    funext m₁
    rw [bind_done (collect_fixed_eq hpatience rfl (hquotes m₁.cells)), hlength]
    show call host site _ (.standard .cond)
      (Value.readAll (askedTimes (no.toList.length + 1) m₁).cells _) _ = _
    rw [cells_askedTimes, readAll_quoted]

theorem even_askedTimes {m m' : Machine σ} (h : m.Even m') (n : Nat) :
    m.Even (askedTimes n m') := by
  induction n generalizing m' with
  | zero => exact h
  | succ n ih => exact ih h.asked

/-- The branch goes the same way on machines that show the same. -/
theorem branch_even (hpatience : site.patience = none) (code? : Option Code) {m m' : Machine σ}
    (h : m.Even m') :
    (branch (eval host site depth) code? m).Alike Machine.Even
      (branch (eval host site depth) code? m') := by
  cases code? with
  | none => exact .done _ h
  | some code => exact eval_even host hpatience depth code h

/-- The branch does not have to be read before. -/
theorem branch_read (code? : Option Code) (m : Machine σ) :
    branch (eval host site depth) (code?.map (Expr.read m.cells)) m
      = branch (eval host site depth) code? m := by
  cases code? with
  | none => rfl
  | some code => exact eval_read host site depth code m.cells.covers_refl

/-- The choice does not depend on the branches. -/
theorem chosen_map (f : Code → Code) (v : Value) (yes : Code) (no : Option Code) :
    Expr.chosen v (f yes) (no.map f) = (Expr.chosen v yes no).map f := by
  unfold Expr.chosen
  split
  · rfl
  · rfl

end Eval

-- ====================================================== the same outcome

/-- The one value is the other, which got an identity unless it had one. -/
def Value.Becomes (v w : Value) : Prop :=
  ∃ mark, w = v.identify mark

/-- How an `if` form and a call of `cond` end, given how the test did. -/
inductive Outcome.Matches (same : Value → Value → Prop) (tested : Outcome σ Value) :
    Outcome σ Value → Outcome σ Value → Prop where
  /-- Neither comes to an end. -/
  | spent : Matches same tested .spent .spent
  | value {v w : Value} (hsame : same v w) {m m' : Machine σ} (h : m.Agree m') :
      Matches same tested (.done (.ok v) m) (.done (.ok w) m')
  /-- The test failed, and its failure is that of both. -/
  | testFailed {e : Failure} {m m' : Machine σ} (htest : tested = .done (.error e) m)
      (h : m.Agree m') : Matches same tested (.done (.error e) m) (.done (.error e) m')
  /-- The branch failed, and the call reports its failure. -/
  | branchFailed {e : Failure} {v : Value} {m₁ m m' : Machine σ}
      (htest : tested = .done (.ok v) m₁) (h : m.Agree m') :
      Matches same tested (.done (.error e) m) (.done (.error e.ofCall) m')

/-- A value that has its identity does not get another. -/
theorem Outcome.Matches.exactly {tested x y : Outcome σ Value}
    (h : Matches Value.Becomes tested x y) (hx : ∀ v m, x = .done (.ok v) m → v.Settled) :
    Matches Eq tested x y := by
  cases h with
  | spent => exact .spent
  | value hsame hm =>
    obtain ⟨mark, rfl⟩ := hsame
    exact .value (hx _ _ rfl mark).symm hm
  | testFailed htest hm => exact .testFailed htest hm
  | branchFailed htest hm => exact .branchFailed htest hm

/-- If `if` has a value, then so does `cond`. -/
theorem Outcome.Matches.of_value {tested y : Outcome σ Value} {v : Value} {m : Machine σ}
    (h : Matches Eq tested (.done (.ok v) m) y) : ∃ m', y = .done (.ok v) m' ∧ m.Agree m' := by
  cases h with
  | value hsame hm =>
    cases hsame
    exact ⟨_, rfl, hm⟩

namespace Eval

variable {host : Host σ} {site : Site} {depth : Nat} {test yes : Code}
  {no : Option Code} {ifCode condCode : Code} {m : Machine σ}

/-- A value gets its identity on one side. -/
theorem agree_settling {m m' : Machine σ} (h : m.Even m') (v : Value) :
    m.Agree (m'.settling v) := by
  unfold Machine.settling
  split
  · exact ⟨h.frames, h.imports, h.host, h.cells, h.printed⟩
  · exact h.toAgree

/-- The call of `cond` on a machine that shows the same ends as the branch
does. -/
theorem call_matches_branch (hpatience : site.patience = none) {tested : Outcome σ Value}
    {m₁ m₂ : Machine σ} (h : m₁.Even m₂) {v : Value} (htest : tested = .done (.ok v) m₁) :
    Outcome.Matches Value.Becomes tested
      (branch (eval host site depth) (Expr.chosen (v.read m₁.cells) yes no) m₁)
      (call host site (eval host site depth) (.standard .cond) (quotedArgs m₁.cells v yes no)
        m₂) := by
  generalize hargs : quotedArgs m₁.cells v yes no = args
  generalize hchosen : Expr.chosen (v.read m₁.cells) yes no = chosen
  -- a branch was read when the call was made and is read once more when it is evaluated, which
  -- makes no difference
  have hprocedure : applyProc host site (eval host site depth) args (.standard .cond)
      = branch (eval host site depth) (chosen.map (Expr.read m₁.cells)) := by
    rw [← hargs, ← hchosen, ← chosen_map]
    have hquoted : condProcedure (eval host site depth) _ = _ :=
      condProcedure_quoted (v.read m₁.cells) (yes.read m₁.cells) (no.map (Expr.read m₁.cells))
    rwa [Option.map_map] at hquoted
  have hbranch : (branch (eval host site depth) chosen m₁).Alike Machine.Even
      (applyProc host site (eval host site depth) args (.standard .cond)
        (m₂.noting (.standard .cond) args)) := by
    rw [hprocedure, ← branch_read]
    exact branch_even hpatience _ (h.noting _ args)
  generalize branch (eval host site depth) chosen m₁ = x at hbranch ⊢
  generalize hcall : applyProc host site (eval host site depth) args (.standard .cond)
    (m₂.noting (.standard .cond) args) = y at hbranch
  cases hbranch with
  | spent =>
    rw [call_spent hcall]
    exact .spent
  | done answer hm =>
    cases answer with
    | error e =>
      rw [call_failed hcall]
      exact .branchFailed htest hm.toAgree
    | ok w =>
      rw [call_done hcall]
      exact .value ⟨_, rfl⟩ (agree_settling hm w)

/-- Test and branch, one after the other. -/
theorem if_matches_cond (hpatience : site.patience = none)
    (hcond : m.frames.lookup site.frame "cond" = some (.proc (.standard .cond)))
    (hforms : Expr.Paired test yes no ifCode condCode) :
    Outcome.Matches Value.Becomes (eval host site depth test (asked m))
      (eval host site (depth + 1) ifCode m) (eval host site (depth + 1) condCode m) := by
  have htest := eval_even host hpatience depth test (Machine.Even.refl (asked m)).asked
  rw [eval_if hpatience hforms, eval_cond hpatience hcond hforms]
  unfold Eval.bind
  generalize eval host site depth test (asked m) = tested at htest ⊢
  generalize eval host site depth test (asked (asked m)) = tested' at htest ⊢
  cases htest with
  | spent => exact .spent
  | @done answer m₁ m₁' hm₁ =>
    cases answer with
    | error e => exact .testFailed rfl hm₁.toAgree
    | ok v =>
      dsimp only
      rw [hm₁.cells]
      exact call_matches_branch hpatience (even_askedTimes hm₁ _) rfl

/-- `if` does not see the branch that the test did not pick. -/
theorem eval_if_congr (hpatience : site.patience = none)
    (hforms : Expr.Paired test yes no ifCode condCode) {yes' : Code} {no' : Option Code}
    {ifCode' condCode' : Code} (hforms' : Expr.Paired test yes' no' ifCode' condCode')
    (hchosen : ∀ v m₁, eval host site depth test (asked m) = .done (.ok v) m₁ →
      Expr.chosen (v.read m₁.cells) yes' no' = Expr.chosen (v.read m₁.cells) yes no) :
    eval host site (depth + 1) ifCode' m = eval host site (depth + 1) ifCode m := by
  rw [eval_if hpatience hforms, eval_if hpatience hforms']
  unfold Eval.bind
  cases htest : eval host site depth test (asked m) with
  | spent => rfl
  | done answer m₁ =>
    cases answer with
    | error e => rfl
    | ok v => simp only [hchosen v m₁ htest]

/-- `cond` with quoted branches is `if`: on the same machine both come to no
end, or both end with the same bindings, imports and output, with the same
value, with the failure of the test, or with the failure of the branch,
which `cond` reports. Neither of them sees the branch that the test did not
pick: with any other in its place `if` ends as it did, and `cond` matches
it. -/
theorem cond_quoted_is_if (host : Host σ) (hpatience : site.patience = none)
    (hcond : m.frames.lookup site.frame "cond" = some (.proc (.standard .cond)))
    (hforms : Expr.Paired test yes no ifCode condCode) (depth : Nat) :
    Outcome.Matches Value.Becomes (eval host site depth test (asked m))
      (eval host site (depth + 1) ifCode m) (eval host site (depth + 1) condCode m)
    ∧ (host.Settles → m.Identified →
      Outcome.Matches Eq (eval host site depth test (asked m))
        (eval host site (depth + 1) ifCode m) (eval host site (depth + 1) condCode m))
    ∧ ∀ (yes' : Code) (no' : Option Code) (ifCode' condCode' : Code),
      Expr.Paired test yes' no' ifCode' condCode' →
      (∀ v m₁, eval host site depth test (asked m) = .done (.ok v) m₁ →
        Expr.chosen (v.read m₁.cells) yes' no' = Expr.chosen (v.read m₁.cells) yes no) →
      eval host site (depth + 1) ifCode' m = eval host site (depth + 1) ifCode m
      ∧ Outcome.Matches Value.Becomes (eval host site depth test (asked m))
        (eval host site (depth + 1) ifCode m) (eval host site (depth + 1) condCode' m) := by
  have hmatches : Outcome.Matches Value.Becomes (eval host site depth test (asked m)) _ _ :=
    if_matches_cond hpatience hcond hforms
  refine ⟨hmatches, fun hhost hm => ?_, fun yes' no' ifCode' condCode' hforms' hchosen => ?_⟩
  · exact hmatches.exactly fun v m' h => (eval_settles hhost h hm).2 v rfl
  · have hif := eval_if_congr hpatience hforms hforms' hchosen
    rw [← hif]
    exact ⟨rfl, if_matches_cond hpatience hcond hforms'⟩

/-- A machine with the root frame of a session. -/
def opened : Machine Platform :=
  { idle with frames := [⟨rootMembers, none⟩] }

/-- What a session starts with has its identity. -/
theorem opened_identified : opened.Identified :=
  ⟨List.forall_mem_singleton.2 rootMembers_settled, List.forall_mem_nil _⟩

/-- `(define cond n)` -/
def redefining (n : Int64) : Code :=
  .list .blank [.symbol "define", .symbol "cond", .int n]

/-- Test and branch both rebind `cond`, and the branch that is not picked
would fail. -/
theorem cond_quoted_is_if_rebinding :
    opened.frames.lookup 0 "cond" = some (.proc (.standard .cond))
    ∧ Platform.host.Settles ∧ opened.Identified
    ∧ (∃ m m', eval Platform.host ⟨0, 0, none⟩ 4 (.list .blank
          [.symbol "if", redefining 1, redefining 2, .symbol "missing"]) opened
        = .done (.ok (.int 2)) m
      ∧ eval Platform.host ⟨0, 0, none⟩ 4 (.list .blank
          [.symbol "cond", redefining 1, .list .blank [.symbol "quote", redefining 2],
            .list .blank [.symbol "quote", .symbol "missing"]]) opened
        = .done (.ok (.int 2)) m'
      ∧ m.Agree m')
    ∧ eval Platform.host ⟨0, 0, none⟩ 4 (.list .blank
          [.symbol "if", redefining 1, redefining 2]) opened
        = eval Platform.host ⟨0, 0, none⟩ 4 (.list .blank
          [.symbol "if", redefining 1, redefining 2, .symbol "missing"]) opened := by
  have hcond : opened.frames.lookup 0 "cond" = some (.proc (.standard .cond)) :=
    Frames.lookup_of_root rfl "cond"
  have hhost : Platform.host.Settles := Platform.host_confined.settles
  have hpatience : (⟨0, 0, none⟩ : Site).patience = none := rfl
  have hforms : Expr.Paired (redefining 1) (redefining 2) _ _ _ :=
    .three (.symbol "missing") .blank .blank .blank .blank
  have hforms' : Expr.Paired (redefining 1) (redefining 2) _ _ _ := .two .blank .blank .blank
  obtain ⟨-, hmatches, hother⟩ := cond_quoted_is_if Platform.host hpatience hcond hforms 3
  refine ⟨hcond, hhost, opened_identified, ?_, ?_⟩
  · obtain ⟨m', hm', hagree⟩ := (hmatches hhost opened_identified).of_value
    exact ⟨_, m', rfl, hm', hagree⟩
  · refine (hother _ _ _ _ hforms' fun v m₁ hv => ?_).1
    cases hv
    rfl

end Eval

end LispShell
