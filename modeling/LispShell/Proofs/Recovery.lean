/-
Reading and running go on after a fault.

The reader cuts every list of tokens into chunks (`readEach_partition`):
complete forms, closing parentheses that belong to nothing, and perhaps an
open list at the end. A run takes them in that order. As long as nobody
tells it to stop, `Runs` says all that it does: a complete form is
evaluated, once, in the state that was left by what came before it; a
chunk that could not be read evaluates nothing and fails. So there is one
outcome for each chunk, and a stray parenthesis costs no form.

A run has no end only if one of the forms has none when its turn comes
(`Stuck`).
-/
import LispShell.Proofs.Program
import LispShell.Proofs.Reader

namespace LispShell

namespace Reader

/-- A fault of the reader says which of the two kinds it is. -/
theorem Chunk.fault_cases {tokens : List Token} {f : Fault} (h : Chunk tokens (.error f)) :
    tokens = [")"] ∧ f.message = "unexpected closing parenthesis" ∧ f.incomplete = false
    ∨ Unclosed tokens ∧ f.message = "missing closing parenthesis" ∧ f.incomplete = true := by
  cases h with
  | stray => exact .inl ⟨rfl, rfl, rfl⟩
  | unclosed h => exact .inr ⟨h, rfl, rfl⟩

end Reader

namespace Interpreter

open Eval

variable {σ : Type}

-- ============================================== runs that are never told to stop

/-- A run of forms, the first of which is number `index`, with an outcome
for each. Between two forms nothing happens but that a failure is noted
in the log and the machine is asked whether to go on. -/
inductive Runs (i : Interpreter σ) : Nat → Machine σ → List (Except Fault Form) →
    List (Except Failure Value) → Machine σ → Prop where
  | nil {index : Nat} {m : Machine σ} : Runs i index m [] [] m
  | value {index : Nat} {m m₁ last : Machine σ} {form : Form} {v : Value}
      {forms : List (Except Fault Form)} {outcomes : List (Except Failure Value)}
      (eval : i.evalForm form m = .done (.ok v) m₁)
      (rest : Runs i (index + 1) m₁ forms outcomes last) :
      Runs i index m (.ok form :: forms) (.ok v :: outcomes) last
  | failed {index : Nat} {m m₁ last : Machine σ} {form : Form} {e : Failure}
      {forms : List (Except Fault Form)} {outcomes : List (Except Failure Value)}
      (eval : i.evalForm form m = .done (.error e) m₁)
      (rest : Runs i (index + 1) (asked (noted id index e m₁)) forms outcomes last) :
      Runs i index m (.ok form :: forms) (.error e :: outcomes) last
  | unread {index : Nat} {m last : Machine σ} {f : Fault}
      {forms : List (Except Fault Form)} {outcomes : List (Except Failure Value)}
      (rest : Runs i (index + 1) (asked (noted id index (.fault f) m)) forms outcomes last) :
      Runs i index m (.error f :: forms) (.error (.fault f) :: outcomes) last

/-- Every form has one outcome. -/
theorem Runs.length_eq {i : Interpreter σ} {index : Nat} {m last : Machine σ}
    {forms : List (Except Fault Form)} {outcomes : List (Except Failure Value)}
    (h : i.Runs index m forms outcomes last) : outcomes.length = forms.length := by
  induction h with
  | nil => rfl
  | value _ _ ih => rw [List.length_cons, List.length_cons, ih]
  | failed _ _ ih => rw [List.length_cons, List.length_cons, ih]
  | unread _ ih => rw [List.length_cons, List.length_cons, ih]

/-- The evaluation of one of the forms does not end, once those before it
were run. -/
def Stuck (i : Interpreter σ) (index : Nat) (m : Machine σ) (forms : List (Except Fault Form)) :
    Prop :=
  ∃ before form after outcomes m₁, forms = before ++ .ok form :: after
    ∧ i.Runs index m before outcomes m₁ ∧ i.evalForm form m₁ = .spent

/-- How a run ends that is never told to stop. -/
inductive Ends (i : Interpreter σ) (index : Nat) (m : Machine σ)
    (forms : List (Except Fault Form)) : Outcome σ (List (Except Failure Value)) → Prop where
  | done {outcomes : List (Except Failure Value)} {last : Machine σ}
      (runs : i.Runs index m forms outcomes last) : Ends i index m forms (.done (.ok outcomes) last)
  | spent (stuck : i.Stuck index m forms) : Ends i index m forms .spent

/-- One more form in front. -/
theorem Ends.cons {i : Interpreter σ} {index : Nat} {m m₁ : Machine σ}
    {form : Except Fault Form} {forms : List (Except Fault Form)} {outcome : Except Failure Value}
    (hcons : ∀ {forms outcomes last}, i.Runs (index + 1) m₁ forms outcomes last →
      i.Runs index m (form :: forms) (outcome :: outcomes) last)
    {x : Eval σ (List (Except Failure Value))} (h : i.Ends (index + 1) m₁ forms (x m₁)) :
    i.Ends index m (form :: forms)
      (Eval.bind x (fun further => Eval.pure (outcome :: further)) m₁) := by
  -- how `x` ends is an index of `Ends`, so it has to be a variable
  generalize hx : x m₁ = result at h
  cases h with
  | done runs =>
    rw [bind_done hx]
    exact .done (hcons runs)
  | spent stuck =>
    obtain ⟨before, form', after, outcomes, m₂, rfl, hruns, hspent⟩ := stuck
    have hbind : Eval.bind x (fun further => Eval.pure (outcome :: further)) m₁ = .spent := by
      simp only [Eval.bind, hx]
    rw [hbind]
    exact .spent ⟨form :: before, form', after, outcome :: outcomes, m₂, rfl, hcons hruns, hspent⟩

/-- Without an end to the patience, running forms is `Runs`. -/
theorem runForms_ends {i : Interpreter σ} (hpatience : i.site.patience = none)
    (forms : List (Except Fault Form)) :
    ∀ index m, i.Ends index m forms (i.runForms silent index forms m) := by
  have hgo : ∀ m : Machine σ, checkpoint i.site.patience m = .done (.ok ()) (asked m) := by
    intro m
    rw [hpatience]
    rfl
  induction forms with
  | nil => exact fun index m => .done .nil
  | cons form forms ih =>
    intro index m
    cases form with
    | error f =>
      -- nothing is evaluated, and the machine stays as it is up to the note
      have hread : i.evalRead (.error f) m = .done (.error (.fault f)) m := rfl
      rw [runForms_failed silent hread rfl (hgo _)]
      exact (ih _ _).cons .unread
    | ok form =>
      generalize heval : i.evalRead (.ok form) m = result
      cases result with
      | spent =>
        rw [runForms_spent silent heval]
        exact .spent ⟨[], form, forms, [], m, rfl, .nil, heval⟩
      | done answer m₁ =>
        cases answer with
        | ok v =>
          rw [runForms_ok silent heval rfl]
          exact (ih _ _).cons (.value heval)
        | error e =>
          rw [runForms_failed silent heval rfl (hgo _)]
          exact (ih _ _).cons (.failed heval)

-- ============================================== whole texts

/-- Reading recovers from every fault, and so does a run. Whatever the
tokens, they are cut into chunks, of which each is of one kind only. A
text with these tokens that is run without an end to the patience has one
outcome for each chunk, in their order, and every complete form among them
is evaluated once; unless the evaluation of one of them has no end. -/
theorem reading_recovers (tokens : List Token) :
    ∃ chunks, Reader.Partition tokens chunks
      ∧ Reader.readEach tokens = Reader.remainders chunks
      ∧ (∀ c ∈ chunks, c.1 ≠ [] ∧ (∀ outcome, Reader.Chunk c.1 outcome → outcome = c.2)
        ∧ ∀ f, c.2 = .error f →
          c.1 = [")"] ∧ f.message = "unexpected closing parenthesis" ∧ f.incomplete = false
          ∨ Reader.Unclosed c.1 ∧ f.message = "missing closing parenthesis"
            ∧ f.incomplete = true)
      ∧ ∀ (σ : Type) (i : Interpreter σ) (m : Machine σ) (source : String),
        i.site.patience = none → Token.lex source = .ok tokens →
          (∃ outcomes last, i.program source m = .done (.ok outcomes) last
            ∧ i.Runs 0 m (chunks.map (·.2)) outcomes last
            ∧ outcomes.length = chunks.length
            ∧ (values outcomes).length + (failures outcomes).length = chunks.length)
          ∨ i.program source m = .spent ∧ i.Stuck 0 m (chunks.map (·.2)) := by
  obtain ⟨chunks, hchunks, hread⟩ := Reader.readEach_partition tokens
  refine ⟨chunks, hchunks, hread, fun c hc => ?_, fun σ i m source hpatience hlex => ?_⟩
  · have hchunk := hchunks.each c hc
    refine ⟨hchunk.ne_nil, fun outcome h => h.unique hchunk, fun f hf => ?_⟩
    rw [hf] at hchunk
    exact hchunk.fault_cases
  · have hforms : Reader.forms tokens = chunks.map (·.2) := by
      rw [Reader.forms, hread, Reader.map_remainders]
    have hends := runForms_ends hpatience (chunks.map (·.2)) 0 m
    rw [← hforms, ← i.program_of_lex hlex, hforms] at hends
    generalize i.program source m = result at hends
    cases hends with
    | @done outcomes last runs =>
      have hlength : outcomes.length = chunks.length := by
        rw [runs.length_eq, List.length_map]
      exact .inl ⟨outcomes, last, rfl, runs, hlength, (values_length_add outcomes).trans hlength⟩
    | spent stuck => exact .inr ⟨rfl, stuck⟩

/-- A machine in which nothing is bound. -/
def bare : Machine Platform where
  frames := [⟨[], none⟩]
  imports := ⟨[], []⟩
  host := Sample.platform
  cells := []
  made := 0
  queries := 0
  journal := []

/-- Stray parentheses, and one form between them. -/
theorem reading_recovers_stray :
    Token.lex ") () ) (" = .ok [")", "(", ")", ")", "("]
    ∧ ∃ chunks outcomes last, Reader.Partition [")", "(", ")", ")", "("] chunks
      ∧ (⟨Sample.host, ⟨0, 0, none⟩, 1⟩ : Interpreter Platform).program ") () ) (" bare
        = .done (.ok outcomes) last
      ∧ chunks.length = 4 ∧ (values outcomes).length = 1 ∧ (failures outcomes).length = 3 := by
  have hlex : Token.lex ") () ) (" = .ok [")", "(", ")", ")", "("] := rfl
  have hforms : Reader.forms [")", "(", ")", ")", "("]
      = [.error .unexpectedClose, .ok (.list () []), .error .unexpectedClose,
          .error .missingClose] := by
    cbv
  have hdone : ∃ last,
      (⟨Sample.host, ⟨0, 0, none⟩, 1⟩ : Interpreter Platform).program ") () ) (" bare
        = .done (.ok [.error (.fault .unexpectedClose), .ok (.sequence (.made 0 1) []),
            .error (.fault .unexpectedClose), .error (.fault .missingClose)]) last := by
    rw [program_of_lex _ hlex, hforms]
    exact ⟨_, rfl⟩
  obtain ⟨last, hdone⟩ := hdone
  obtain ⟨chunks, hchunks, -, -, hrun⟩ := reading_recovers [")", "(", ")", ")", "("]
  rcases hrun Platform ⟨Sample.host, ⟨0, 0, none⟩, 1⟩ bare ") () ) (" rfl hlex with
    ⟨outcomes, last', hprogram, -, hlength, -⟩ | ⟨hspent, -⟩
  · rw [hdone] at hprogram
    cases hprogram
    exact ⟨hlex, chunks, _, last, hchunks, hdone, hlength.symm, rfl, rfl⟩
  · rw [hdone] at hspent
    cases hspent

end Interpreter

end LispShell
