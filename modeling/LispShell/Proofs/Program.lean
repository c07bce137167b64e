/-
Running the forms of a text, one after the other.

What a run does after a form depends only on how the evaluation of that
form ended. After a value it goes on. After a failure it notes that in the
log, asks whether to go on, and either does or ends there. One lemma for
each of these says so for every way to report outcomes that only changes
the machine; proofs about runs go through these lemmas by induction on the
forms, and never open `runForms`.
-/
import LispShell.Proofs.Orderly

namespace LispShell.Interpreter

open Eval

variable {σ : Type} {i : Interpreter σ}

-- ============================================== reports

/-- The report of a program: none. -/
def silent : Except Failure Value → Eval σ Unit :=
  fun _ => return ()

/-- The machine after a form failed: the failure is in the log, and was
reported. -/
def noted (f : Machine σ → Machine σ) (index : Nat) (e : Failure) (m : Machine σ) :
    Machine σ :=
  f { m with journal := .logged (formFailed index e) :: m.journal }

section

variable (report : Except Failure Value → Eval σ Unit) {f : Machine σ → Machine σ}
  {index : Nat} {form : Except Fault Form} {rest : List (Except Fault Form)}
  {m m₁ : Machine σ}

/-- After a form with a value the next one is run. -/
theorem runForms_ok {v : Value} (h : i.evalRead form m = .done (.ok v) m₁)
    (hreport : report (.ok v) = modify f) :
    i.runForms report index (form :: rest) m
      = Eval.bind (i.runForms report (index + 1) rest)
          (fun further => Eval.pure (.ok v :: further)) (f m₁) := by
  show Eval.bind (attempt (i.evalRead form)) _ m = _
  rw [bind_attempt h]
  show Eval.bind (report (.ok v)) _ m₁ = _
  rw [hreport]
  rfl

/-- After a form that failed the machine is asked whether to go on. -/
theorem runForms_error {e : Failure} (h : i.evalRead form m = .done (.error e) m₁)
    (hreport : report (.error e) = modify f) :
    i.runForms report index (form :: rest) m
      = Eval.bind (attempt (checkpoint i.site.patience))
          (fun
            | .error _ => Eval.pure [.error e]
            | .ok _ => Eval.bind (i.runForms report (index + 1) rest)
                fun further => Eval.pure (.error e :: further)) (noted f index e m₁) := by
  show Eval.bind (attempt (i.evalRead form)) _ m = _
  rw [bind_attempt h]
  show Eval.bind (report (.error e)) _ _ = _
  rw [hreport]
  rfl

/-- If the answer is to go on, the next form is run. -/
theorem runForms_failed {e : Failure} (h : i.evalRead form m = .done (.error e) m₁)
    (hreport : report (.error e) = modify f) {m₂ : Machine σ}
    (hgo : checkpoint i.site.patience (noted f index e m₁) = .done (.ok ()) m₂) :
    i.runForms report index (form :: rest) m
      = Eval.bind (i.runForms report (index + 1) rest)
          (fun further => Eval.pure (.error e :: further)) m₂ := by
  rw [runForms_error report h hreport, bind_attempt hgo]

/-- An evaluation without an end leaves the run without one. -/
theorem runForms_spent (h : i.evalRead form m = .spent) :
    i.runForms report index (form :: rest) m = .spent := by
  show Eval.bind (attempt (i.evalRead form)) _ m = _
  simp only [Eval.bind, attempt, h]

end

/-- A text with tokens is run form by form. -/
theorem program_of_lex (i : Interpreter σ) {source : String} {tokens : List Token}
    (h : Token.lex source = .ok tokens) :
    i.program source = i.runForms silent 0 (Reader.forms tokens) := by
  rw [program, runSource, h]
  rfl

-- ============================================== outcomes

/-- The values among outcomes. -/
def values (outcomes : List (Except Failure Value)) : List Value :=
  outcomes.filterMap fun
    | .ok v => some v
    | .error _ => none

/-- The failures among outcomes. -/
def failures (outcomes : List (Except Failure Value)) : List Failure :=
  outcomes.filterMap fun
    | .ok _ => none
    | .error e => some e

/-- Every outcome is a value or a failure. -/
theorem values_length_add (outcomes : List (Except Failure Value)) :
    (values outcomes).length + (failures outcomes).length = outcomes.length := by
  induction outcomes with
  | nil => rfl
  | cons outcome outcomes ih =>
    cases outcome with
    | ok v =>
      show (values outcomes).length + 1 + (failures outcomes).length = outcomes.length + 1
      omega
    | error e =>
      show (values outcomes).length + ((failures outcomes).length + 1) = outcomes.length + 1
      omega

end LispShell.Interpreter
