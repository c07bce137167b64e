/-
A cancellation cuts a run at one point.

Two runs of one text from one state, the first with less patience than
the second, are compared form by form. As long as the first is told to go
on they do the same. The question that ends it comes either inside of a
form, which then fails with a cancellation and is noted in the log; or
between two forms, after one that failed anyway (`Ending`). In both cases
the state in which the question was asked is one that the second run goes
through as well, since every evaluation is cut (`evalRead_cut`) and what
follows only adds to the journal.

The journal holds each question together with what was bound, imported
and stored when it was asked. So the state of the second run at its `k + 1`st
question can be read off the journal it ends with, and `program_cut` says
that it is the state in which the first run ends.
-/
import LispShell.Desk
import LispShell.Proofs.Patience

namespace LispShell

-- ============================================== notes

/-- Whether an event changes and shows nothing: a line for the log, or a
question. -/
def Event.isNote : Event → Bool
  | .logged _ => true
  | .queried .. => true
  | _ => false

/-- What is printed in two parts is printed one after the other. -/
theorem Event.printedText_append (first second : List Event) :
    printedText (first ++ second) = printedText first ++ printedText second := by
  induction first with
  | nil => rw [List.nil_append, printedText, String.empty_append]
  | cons event first ih =>
    cases event with
    | printed line =>
      rw [List.cons_append, printedText, printedText, ih]
      simp only [String.append_assoc]
    | _ => exact ih

namespace Interpreter

open Eval

variable {σ : Type} {i : Interpreter σ}

-- ============================================== where a run is cut

/-- How the outcomes of a run end that was cancelled by the question it
was asked in the state `before`, beside those of a run that was not. -/
inductive Ending (before last : Machine σ) (short long : List (Except Failure Value)) :
    Prop where
  /-- The question came after a form that failed anyway. -/
  | between {index : Nat} {e : Failure} (whole : List (Except Failure Value))
      (failed : short = whole ++ [.error e]) (agree : short <+: long)
      (note : before.journal.head? = some (.logged (formFailed index e)))
      (state : last = asked before)
  /-- The question came inside of a form, which failed because of it. -/
  | inside {index : Nat} {e : Failure} (whole : List (Except Failure Value))
      (failed : short = whole ++ [.error e]) (canceled : e.isCanceled = true)
      (agree : whole <+: long) (state : last = asked (noted id index e (asked before)))

/-- One more outcome in front of both changes nothing about the end. -/
theorem Ending.cons {before last : Machine σ} {short long : List (Except Failure Value)}
    (h : Ending before last short long) (outcome : Except Failure Value) :
    Ending before last (outcome :: short) (outcome :: long) := by
  cases h with
  | between whole failed agree note state =>
    refine .between (outcome :: whole) ?_ ?_ note state
    · rw [failed, List.cons_append]
    · exact List.cons_prefix_cons.2 ⟨rfl, agree⟩
  | inside whole failed canceled agree state =>
    refine .inside (outcome :: whole) ?_ canceled ?_ state
    · rw [failed, List.cons_append]
    · exact List.cons_prefix_cons.2 ⟨rfl, agree⟩

/-- How running forms under less patience compares with running them under
more: it ends alike, or it is cut. -/
inductive ProgramCut (n : Nat) (m : Machine σ) (x y : Eval σ (List (Except Failure Value))) :
    Prop where
  | same {outcomes : List (Except Failure Value)} {m' : Machine σ}
      (left : x m = .done (.ok outcomes) m') (right : y m = .done (.ok outcomes) m')
      (patient : m'.queries ≤ n)
  | stopped {short long : List (Except Failure Value)} {before last m' : Machine σ}
      (left : x m = .done (.ok short) last) (right : y m = .done (.ok long) m')
      (follows : m.Follows before) (asks : before.queries = n)
      (passed : (asked before).Follows m') (ending : Ending before last short long)

/-- One more outcome in front of both. -/
theorem ProgramCut.cons {n : Nat} {m m₁ : Machine σ}
    {x y x' y' : Eval σ (List (Except Failure Value))} {outcome : Except Failure Value}
    (h : ProgramCut n m₁ x y) (hfollows : m.Follows m₁)
    (hx : x' m = Eval.bind x (fun further => Eval.pure (outcome :: further)) m₁)
    (hy : y' m = Eval.bind y (fun further => Eval.pure (outcome :: further)) m₁) :
    ProgramCut n m x' y' := by
  cases h with
  | same left right patient =>
    exact .same (hx.trans (bind_done left)) (hy.trans (bind_done right)) patient
  | stopped left right follows asks passed ending =>
    exact .stopped (hx.trans (bind_done left)) (hy.trans (bind_done right))
      (hfollows.trans follows) asks passed (ending.cons outcome)

section

variable {before last : Machine σ} {short long : List (Except Failure Value)}

/-- After the question that was answered with no, only notes are
taken. -/
theorem Ending.state_eq (h : Ending before last short long) :
    last.frames = before.frames ∧ last.imports = before.imports ∧ last.cells = before.cells
      ∧ before.queries < last.queries
      ∧ ∃ after, last.journal = after ++ (asked before).journal
        ∧ ∀ event ∈ after, event.isNote = true := by
  cases h with
  | between whole failed agree note state =>
    subst state
    exact ⟨rfl, rfl, rfl, Nat.lt_succ_self _, [], rfl, fun _ h => nomatch h⟩
  | @inside index e whole failed canceled agree state =>
    subst state
    refine ⟨rfl, rfl, rfl, ?_, [.queried before.frames before.imports.imported before.cells,
      .logged (formFailed index e)], rfl, ?_⟩
    · exact Nat.lt_succ_of_lt (Nat.lt_succ_self _)
    · intro event hevent
      rcases List.mem_cons.1 hevent with rfl | hevent
      · rfl
      · rw [List.mem_singleton.1 hevent]
        rfl

end

end Interpreter

end LispShell
