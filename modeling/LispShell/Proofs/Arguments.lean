/-
Calls that check their arguments before they run.

A procedure of the host or of machine code has a body that only knows
data of its own. A call of it checks the number of the arguments, turns
each argument into what its parameter wants, from left to right, and runs
the body on the outcome only if nothing was wrong (`ChecksFirst`).

# What it means to run

The call is looked at as a function of the body. The body ran on `ws` if,
whatever the body is, the call comes to what is made of its outcome on
`ws` (`RunsOn`). It did not run if the call comes to one and the same
fault whatever the body is (`Refuses`). Neither says how the check is
made. That a call cannot do both, and runs on one list of data only, needs
a body whose outcome shows: `RunsOn.prepared_eq`.
-/
import LispShell.Fault
import LispShell.Value.Basic

namespace LispShell

variable {ω ρ γ τ : Type}

theorem Arity.admits_exactly (m n : Nat) : (exactly m).admits n = true ↔ n = m := by
  show (decide (m ≤ n) && decide (n ≤ m)) = true ↔ n = m
  rw [Bool.and_eq_true, decide_eq_true_eq, decide_eq_true_eq]
  omega

theorem Arity.admits_atLeast (m n : Nat) : (atLeast m).admits n = true ↔ m ≤ n := by
  show (decide (m ≤ n) && true) = true ↔ m ≤ n
  rw [Bool.and_true, decide_eq_true_eq]

-- ============================================================ what is stated

section

variable (call : (List ω → ρ) → γ) (after : ρ → γ) (refuse : Fault → γ)

/-- The body ran on these data. -/
def RunsOn (ws : List ω) : Prop :=
  ∀ body, call body = after (body ws)

/-- The call ended with a fault, and the body did not run. -/
def Refuses (fault : Fault) : Prop :=
  ∀ body, call body = refuse fault

/-- A call that checks its arguments before it runs. `param i` is the
parameter of the argument at index `i`, if there is one, and `pass` turns
an argument into what the parameter wants. -/
structure ChecksFirst (procedure : String) (takes : Arity) (param : Nat → Option τ)
    (pass : Nat → τ → Value → Except Fault ω) (args : List Value) : Prop where
  /-- The body runs exactly if the number of arguments is right and every
  argument passes. -/
  runs_iff : (∃ ws, RunsOn call after ws) ↔ takes.admits args.length = true
    ∧ ∀ i v, args[i]? = some v → ∃ t w, param i = some t ∧ pass i t v = .ok w
  /-- It gets the arguments in their order. -/
  in_order : ∀ ws, RunsOn call after ws → ws.length = args.length
    ∧ ∀ i v w, args[i]? = some v → ws[i]? = some w → ∃ t, param i = some t ∧ pass i t v = .ok w
  /-- A wrong number of arguments is what the call complains about. -/
  refuses_count : takes.admits args.length = false →
    Refuses call refuse (.arity procedure takes args.length)
  /-- Otherwise it complains about the first argument that does not pass. -/
  refuses_first : takes.admits args.length = true → ∀ i v t f, args[i]? = some v →
    param i = some t → pass i t v = .error f →
    (∀ j u, j < i → args[j]? = some u → ∃ s w, param j = some s ∧ pass j s u = .ok w) →
    Refuses call refuse f
  /-- There is no third way for a call to go. -/
  runs_or_refuses : (∃ ws, RunsOn call after ws) ∨ ∃ f, Refuses call refuse f
    ∧ (f = .arity procedure takes args.length
      ∨ ∃ i v t, args[i]? = some v ∧ param i = some t ∧ pass i t v = .error f)

end

-- ======================================================== from left to right

/-- Passes the arguments from left to right. What is left of the
parameters after the first is the same, seen from one index on. -/
def passAll (param : Nat → Option τ) (pass : Nat → τ → Value → Except Fault ω) :
    List Value → Except Fault (List ω)
  | [] => .ok []
  | v :: args =>
    match param 0 with
    | none => .ok []
    | some t =>
      match pass 0 t v with
      | .error f => .error f
      | .ok w =>
        (passAll (fun i => param (i + 1)) (fun i => pass (i + 1)) args).map (w :: ·)

section

variable {param : Nat → Option τ} {pass : Nat → τ → Value → Except Fault ω}
  {v : Value} {args : List Value} {t : τ}

/-- An argument that passes is followed by the others. -/
theorem passAll_cons_ok {w : ω} (ht : param 0 = some t) (hw : pass 0 t v = .ok w) :
    passAll param pass (v :: args)
      = (passAll (fun i => param (i + 1)) (fun i => pass (i + 1)) args).map (w :: ·) := by
  simp only [passAll, ht, hw]

/-- One that does not pass decides. -/
theorem passAll_cons_error {f : Fault} (ht : param 0 = some t) (hf : pass 0 t v = .error f) :
    passAll param pass (v :: args) = .error f := by
  simp only [passAll, ht, hf]

/-- If every argument passes, all of them do. -/
theorem exists_passAll_eq_ok
    (h : ∀ i v, args[i]? = some v → ∃ t w, param i = some t ∧ pass i t v = .ok w) :
    ∃ ws, passAll param pass args = .ok ws := by
  induction args generalizing param pass with
  | nil => exact ⟨[], rfl⟩
  | cons v args ih =>
    obtain ⟨t, w, ht, hw⟩ := h 0 v rfl
    obtain ⟨ws, hws⟩ := ih fun i u hu => h (i + 1) u hu
    refine ⟨w :: ws, ?_⟩
    rw [passAll_cons_ok ht hw, hws]
    rfl

/-- If all arguments pass, each gave its own datum. -/
theorem passAll_ok_getElem {ws : List ω} (hparam : ∀ i, i < args.length → ∃ t, param i = some t)
    (h : passAll param pass args = .ok ws) :
    ws.length = args.length ∧ ∀ i v w, args[i]? = some v → ws[i]? = some w →
      ∃ t, param i = some t ∧ pass i t v = .ok w := by
  induction args generalizing param pass ws with
  | nil =>
    cases h
    exact ⟨rfl, fun i v w hv => nomatch hv⟩
  | cons v args ih =>
    obtain ⟨t, ht⟩ := hparam 0 (Nat.zero_lt_succ _)
    cases hw : pass 0 t v with
    | error f => cases (passAll_cons_error ht hw).symm.trans h
    | ok w =>
      rw [passAll_cons_ok ht hw] at h
      cases hrest : passAll (fun i => param (i + 1)) (fun i => pass (i + 1)) args with
      | error f =>
        rw [hrest] at h
        cases h
      | ok ws' =>
        rw [hrest] at h
        cases h
        obtain ⟨hlength, hall⟩ := ih (fun i hi => hparam (i + 1) (Nat.succ_lt_succ hi)) hrest
        refine ⟨congrArg (· + 1) hlength, fun i u x hu hx => ?_⟩
        cases i with
        | zero =>
          cases hu
          cases hx
          exact ⟨t, ht, hw⟩
        | succ i => exact hall i u x hu hx

/-- A fault is that of an argument. -/
theorem exists_of_passAll_eq_error {f : Fault} (h : passAll param pass args = .error f) :
    ∃ i v t, args[i]? = some v ∧ param i = some t ∧ pass i t v = .error f := by
  induction args generalizing param pass with
  | nil => cases h
  | cons v args ih =>
    cases ht : param 0 with
    | none =>
      simp only [passAll, ht] at h
      cases h
    | some t =>
      cases hw : pass 0 t v with
      | error g =>
        cases (passAll_cons_error ht hw).symm.trans h
        exact ⟨0, v, t, rfl, ht, hw⟩
      | ok w =>
        rw [passAll_cons_ok ht hw] at h
        cases hrest : passAll (fun i => param (i + 1)) (fun i => pass (i + 1)) args with
        | error g =>
          rw [hrest] at h
          cases h
          obtain ⟨i, u, s, hu, hs, hf⟩ := ih hrest
          exact ⟨i + 1, u, s, hu, hs, hf⟩
        | ok ws =>
          rw [hrest] at h
          cases h

/-- The first argument that does not pass decides. -/
theorem passAll_eq_error {i : Nat} {f : Fault} (hv : args[i]? = some v) (ht : param i = some t)
    (hf : pass i t v = .error f)
    (hbefore : ∀ j u, j < i → args[j]? = some u → ∃ s w, param j = some s ∧ pass j s u = .ok w) :
    passAll param pass args = .error f := by
  induction args generalizing param pass i with
  | nil => cases hv
  | cons u args ih =>
    cases i with
    | zero =>
      cases hv
      exact passAll_cons_error ht hf
    | succ i =>
      obtain ⟨s, w, hs, hw⟩ := hbefore 0 u (Nat.zero_lt_succ i) rfl
      have hrest : passAll (fun i => param (i + 1)) (fun i => pass (i + 1)) args = .error f :=
        ih hv ht hf fun j x hj hx => hbefore (j + 1) x (Nat.succ_lt_succ hj) hx
      rw [passAll_cons_ok hs hw, hrest]
      rfl

end

-- ================================================================== the call

/-- The data of all arguments, if their number is right and each passes. -/
def passChecked (procedure : String) (takes : Arity) (param : Nat → Option τ)
    (pass : Nat → τ → Value → Except Fault ω) (args : List Value) : Except Fault (List ω) :=
  if takes.admits args.length then passAll param pass args
  else .error (.arity procedure takes args.length)

/-- What a call comes to once its arguments are prepared. -/
def runPrepared (after : ρ → γ) (refuse : Fault → γ) (prepared : Except Fault (List ω))
    (body : List ω → ρ) : γ :=
  match prepared with
  | .error f => refuse f
  | .ok ws => after (body ws)

section

variable {call : (List ω → ρ) → γ} {after : ρ → γ} {refuse : Fault → γ}
  {prepared : Except Fault (List ω)}

/-- A body that answers differently on one list of data shows which one it
got. -/
theorem RunsOn.prepared_eq {ws : List ω} (h : RunsOn call after ws)
    (hcall : call = runPrepared after refuse prepared) (hafter : ∃ r r', after r ≠ after r')
    (hrefuse : ∀ f, ∃ r, after r ≠ refuse f) : prepared = .ok ws := by
  classical
  rw [hcall] at h
  cases prepared with
  | error f =>
    obtain ⟨r, hr⟩ := hrefuse f
    exact absurd (h fun _ => r).symm hr
  | ok ws' =>
    obtain ⟨r, r', hr⟩ := hafter
    by_cases hws : ws' = ws
    · rw [hws]
    · have hbody := h fun x => if x = ws then r else r'
      simp only [runPrepared, if_true, if_neg hws] at hbody
      exact absurd hbody.symm hr

/-- A call that prepares its arguments from left to right checks them
before it runs. -/
theorem checksFirst_of_runPrepared {procedure : String} {takes : Arity} {param : Nat → Option τ}
    {pass : Nat → τ → Value → Except Fault ω} {args : List Value}
    (hcall : call = runPrepared after refuse (passChecked procedure takes param pass args))
    (hparam : takes.admits args.length = true → ∀ i, i < args.length → ∃ t, param i = some t)
    (hafter : ∃ r r', after r ≠ after r') (hrefuse : ∀ f, ∃ r, after r ≠ refuse f) :
    ChecksFirst call after refuse procedure takes param pass args := by
  -- the number of arguments decides first: if it is wrong no argument is looked at
  cases hadmits : takes.admits args.length with
  | false =>
    have herror : passChecked procedure takes param pass args
        = .error (.arity procedure takes args.length) := by
      rw [passChecked, hadmits]
      rfl
    rw [herror] at hcall
    have hnot : ∀ ws, ¬RunsOn call after ws := by
      intro ws h
      cases h.prepared_eq hcall hafter hrefuse
    have hrefuses : Refuses call refuse (.arity procedure takes args.length) := by
      intro body
      rw [hcall]
      rfl
    refine ⟨⟨fun ⟨ws, h⟩ => absurd h (hnot ws), fun h => ?_⟩, fun ws h => absurd h (hnot ws),
      fun _ => hrefuses, fun h => ?_, .inr ⟨_, hrefuses, .inl rfl⟩⟩
    · cases hadmits.symm.trans h.1
    · cases hadmits.symm.trans h
  | true =>
    have hpassed : passChecked procedure takes param pass args = passAll param pass args := by
      rw [passChecked, hadmits]
      rfl
    rw [hpassed] at hcall
    have horder : ∀ ws, RunsOn call after ws → ws.length = args.length
        ∧ ∀ i v w, args[i]? = some v → ws[i]? = some w →
          ∃ t, param i = some t ∧ pass i t v = .ok w := by
      intro ws h
      exact passAll_ok_getElem (hparam hadmits) (h.prepared_eq hcall hafter hrefuse)
    have hruns : ∀ ws, passAll param pass args = .ok ws → RunsOn call after ws := by
      intro ws hws body
      rw [hcall, hws]
      rfl
    have hrefuses : ∀ f, passAll param pass args = .error f → Refuses call refuse f := by
      intro f hf body
      rw [hcall, hf]
      rfl
    refine ⟨⟨?_, ?_⟩, horder, fun h => ?_, ?_, ?_⟩
    · rintro ⟨ws, h⟩
      refine ⟨hadmits, fun i v hv => ?_⟩
      have hi : i < ws.length := by
        rw [(horder ws h).1]
        exact (List.getElem?_eq_some_iff.1 hv).1
      obtain ⟨t, ht, hw⟩ := (horder ws h).2 i v _ hv (List.getElem?_eq_getElem hi)
      exact ⟨t, _, ht, hw⟩
    · rintro ⟨-, hall⟩
      obtain ⟨ws, hws⟩ := exists_passAll_eq_ok hall
      exact ⟨ws, hruns ws hws⟩
    · cases hadmits.symm.trans h
    · intro _ i v t f hv ht hf hbefore
      exact hrefuses f (passAll_eq_error hv ht hf hbefore)
    · cases hall : passAll param pass args with
      | error f => exact .inr ⟨f, hrefuses f hall, .inr (exists_of_passAll_eq_error hall)⟩
      | ok ws => exact .inl ⟨ws, hruns ws hall⟩

end

end LispShell
