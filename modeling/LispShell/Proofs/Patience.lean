/-
An evaluation that is told to stop does stop.

Evaluation is not structurally recursive: a value from a frame can be
evaluated again, and can mention itself. What bounds it is the patience.
Every evaluation of an expression asks first, so an evaluation that still
may ask `r` times goes at most `r + 1` deep (`eval_agree`); with any
greater depth it ends the same way, so the depth that the evaluator is
given plays no part in the result.

# How often

A question that is answered with no ends the expression that asked, and
every computation around it hands the failure on. So a single evaluation
asks at most once more than it is allowed to (`Settled`). Only the loop
over the forms of a text asks again after a failed form, and then stops:
that makes two more (`Finishes`).

# Two runs

`Cut n m x y` compares a computation that goes on until the machine was
asked `n` times with one that may go on longer. Either both end alike
within that; or the first was cancelled, and the state in which it was
asked the last time is one that the second went through. The induction on
depth goes through `Orderly.cut`, once for all forms.
-/
import LispShell.Proofs.Program

namespace LispShell

variable {σ α β : Type}

-- ============================================== finishing

/-- Both computations finish alike, from every machine that was asked `q`
times or more. -/
def Eval.Agree (q : Nat) (x y : Eval σ α) : Prop :=
  ∀ m, q ≤ m.queries → ∃ answer m', x m = .done answer m' ∧ y m = .done answer m'
    ∧ m.Follows m'

namespace Eval

/-- If the expressions inside finish alike, so does an orderly
computation. -/
theorem Orderly.agree {x : Inner σ → Eval σ α} (hx : Orderly x) {q : Nat}
    {inner inner' : Inner σ} (h : ∀ code, Agree q (inner code) (inner' code)) :
    Agree q (x inner) (x inner') := by
  induction hx with
  | finish answer =>
    intro m _
    cases answer with
    | ok a => exact ⟨.ok a, m, rfl, rfl, .refl m⟩
    | error e => exact ⟨.error e, m, rfl, rfl, .refl m⟩
  | look _ ih => exact fun m hq => ih m m hq
  | @change f next quiet _ ih =>
    intro m hq
    obtain ⟨hfollows, hqueries⟩ := quiet m
    obtain ⟨answer, m', hx, hy, hnext⟩ := ih (f m) (hqueries ▸ hq)
    exact ⟨answer, m', hx, hy, hfollows.trans hnext⟩
  | @ask code next _ _ ih =>
    intro m hq
    obtain ⟨answer, m', hx, hy, hfollows⟩ := h code m hq
    obtain ⟨answer', m'', hx', hy', hnext⟩ := ih answer m' (Nat.le_trans hq hfollows.queries_le)
    exact ⟨answer', m'', (bind_attempt hx).trans hx', (bind_attempt hy).trans hy',
      hfollows.trans hnext⟩

variable {host : Host σ}

/-- How a computation that is cancelled compares with one that is not,
from one machine on. -/
inductive Cut (n : Nat) (m : Machine σ) (x y : Eval σ α) : Prop where
  /-- Nothing was cancelled, and both end alike. -/
  | same {answer : Except Failure α} {m' : Machine σ} (left : x m = .done answer m')
      (right : y m = .done answer m') (follows : m.Follows m') (patient : m'.queries ≤ n)
  /-- The first one ends with a cancellation in the state in which it was
  asked, which the second one was in too. -/
  | stopped {e : Failure} {answer : Except Failure α} {before m' : Machine σ}
      (left : x m = .done (.error e) (asked before)) (canceled : e.isCanceled = true)
      (right : y m = .done answer m') (follows : m.Follows before) (last : before.queries = n)
      (passed : (asked before).Follows m')

/-- A cut further on is a cut from the start. -/
theorem Cut.after {n : Nat} {m m₁ : Machine σ} {x y x' y' : Eval σ α} (h : Cut n m₁ x y)
    (hfollows : m.Follows m₁) (hx : x' m = x m₁) (hy : y' m = y m₁) : Cut n m x' y' := by
  cases h with
  | same left right follows patient =>
    exact .same (hx.trans left) (hy.trans right) (hfollows.trans follows) patient
  | stopped left canceled right follows last passed =>
    exact .stopped (hx.trans left) canceled (hy.trans right) (hfollows.trans follows) last passed

/-- If the expressions inside are cut, so is an orderly computation. -/
theorem Orderly.cut {x : Inner σ → Eval σ α} (hx : Orderly x) {q n : Nat}
    {inner inner' : Inner σ}
    (hcut : ∀ code m, q ≤ m.queries → m.queries ≤ n → Cut n m (inner code) (inner' code))
    (hfinish : ∀ code, Agree q (inner' code) (inner' code)) :
    ∀ m, q ≤ m.queries → m.queries ≤ n → Cut n m (x inner) (x inner') := by
  induction hx with
  | finish answer =>
    intro m _ hn
    cases answer with
    | ok a => exact .same rfl rfl (.refl m) hn
    | error e => exact .same rfl rfl (.refl m) hn
  | look _ ih =>
    intro m hq hn
    exact (ih m m hq hn).after (.refl m) rfl rfl
  | @change f next quiet _ ih =>
    intro m hq hn
    obtain ⟨hfollows, hqueries⟩ := quiet m
    exact (ih (f m) (hqueries ▸ hq) (hqueries ▸ hn)).after hfollows rfl rfl
  | @ask code next hnext relay ih =>
    intro m hq hn
    cases hcut code m hq hn with
    | @same answer m' left right follows patient =>
      have hrest := ih answer m' (Nat.le_trans hq follows.queries_le) patient
      exact hrest.after follows (bind_attempt left) (bind_attempt right)
    | @stopped e answer before m' left canceled right follows last passed =>
      -- the first one hands the cancellation on, the second goes on somehow
      obtain ⟨e', hcanceled, hfail⟩ := relay e canceled
      have hleft : Eval.bind (attempt (inner code)) (fun answer => next answer inner) m
          = next (.error e) inner (asked before) := bind_attempt left
      have hright : Eval.bind (attempt (inner' code)) (fun answer => next answer inner') m
          = next answer inner' m' := bind_attempt right
      have hq' : q ≤ m'.queries :=
        Nat.le_trans hq (Nat.le_trans follows.queries_le
          ((follows_asked before).trans passed).queries_le)
      obtain ⟨answer', m'', -, hdone, hfollows⟩ := (hnext answer).agree hfinish m' hq'
      rw [hfail] at hleft
      exact .stopped hleft hcanceled (hright.trans hdone) follows last (passed.trans hfollows)

end Eval

namespace Interpreter

open Eval

variable (i : Interpreter σ)

-- ============================================== one form

variable {i}

/-- How the evaluation of a form ends that goes on until the machine was
asked `n` times: it stays within that, or it was cancelled by the next
question. -/
def Settled (n : Nat) (answer : Except Failure α) (m : Machine σ) : Prop :=
  m.queries ≤ n ∨ m.queries = n + 1 ∧ ∃ e, answer = .error e ∧ e.isCanceled = true

end Interpreter

end LispShell
