/-
No call leaks a type error.

A procedure that complains about the number or the types of its arguments
raises a `TypeError`; who calls it reports a `NameError` with the same
message, and keeps the complaint as its cause. The first fault of a failure
from the outside decides (`Failure.kind?`), so a complaint that the host
has put a label on is reported in the same way, and one that is itself the
cause of another fault is not. What was reported once is not reported again
(`Failure.ofCall_ofCall`), so a failure goes up through any number of calls
as it came from the innermost one (`Eval.eval_shielded`).

Apart from calls, only an `import` form and a `.` form can fail with a
`TypeError` of their own. By induction on the depth, an expression without
them (`Expr.Local`) never does: whatever a rule adds is no `TypeError`, and
all else that fails is an expression inside.
-/
import LispShell.Proofs.Branches

namespace LispShell

variable {σ : Type}

-- ====================================================== the first fault

namespace Failure

/-- The kind of the outermost fault. -/
def kind? (e : Failure) : Option Kind :=
  e.leading?.map (·.1)

/-- The outermost fault is one of those that a failure is made of. -/
theorem mem_kinds_of_leading {e : Failure} {k : Kind} {text : String}
    (h : e.leading? = some (k, text)) : k ∈ e.kinds := by
  induction e with
  | fault f =>
    cases h
    exact List.mem_singleton_self _
  | recast cause _ =>
    cases h
    exact List.mem_cons_self
  | caused kind message cause _ =>
    cases h
    exact List.mem_cons_self
  | within label cause ih => exact ih h
  | canceled => cases h
  | file => cases h
  | other => cases h

/-- A type error is reported with itself as the cause. -/
theorem ofCall_of_typing {e : Failure} {text : String} (h : e.leading? = some (.typing, text)) :
    e.ofCall = .recast e := by
  unfold ofCall
  rw [h]

/-- All else is reported as it is. -/
theorem ofCall_of_kind {e : Failure} (h : e.kind? ≠ some .typing) : e.ofCall = e := by
  unfold ofCall
  split
  · next text heq =>
    unfold kind? at h
    rw [heq] at h
    exact absurd rfl h
  · rfl

/-- What a caller reports is no type error. -/
theorem kind?_ofCall (e : Failure) : e.ofCall.kind? ≠ some .typing := by
  by_cases h : e.kind? = some .typing
  · obtain ⟨⟨k, text⟩, hleading, rfl⟩ := Option.map_eq_some_iff.1 h
    rw [ofCall_of_typing hleading]
    intro hkind
    cases hkind
  · rwa [ofCall_of_kind h]

/-- What was reported once is not reported again. -/
theorem ofCall_ofCall (e : Failure) : e.ofCall.ofCall = e.ofCall :=
  ofCall_of_kind (kind?_ofCall e)

/-- A type error is reported as a name error with its message, and stays
among the causes. -/
theorem reported_typing {e : Failure} {text : String} (h : e.leading? = some (.typing, text)) :
    e.ofCall.leading? = some (.name, text) ∧ e.ofCall.message = "NameError: " ++ text
      ∧ e.ofCall.has .name = true ∧ e.ofCall.has .typing = true := by
  rw [ofCall_of_typing h]
  refine ⟨?_, ?_, ?_, ?_⟩
  · rw [leading?, h]
    rfl
  · rw [message, h]
    rfl
  · unfold has
    rw [kinds, List.contains_iff_mem]
    exact List.mem_cons_self
  · unfold has
    rw [kinds, List.contains_iff_mem]
    exact List.mem_cons_of_mem _ (mem_kinds_of_leading h)

/-- How a caller reports a failure. -/
structure ReportedAs (e reported : Failure) : Prop where
  kind : reported.kind? ≠ some .typing
  typing : ∀ text, e.leading? = some (.typing, text) →
    reported.leading? = some (.name, text) ∧ reported.message = "NameError: " ++ text
      ∧ reported.has .name = true ∧ reported.has .typing = true
  other : e.kind? ≠ some .typing → reported = e
  once : ∀ cause, e = ofCall cause → reported = e

theorem reportedAs_ofCall (e : Failure) : e.ReportedAs e.ofCall where
  kind := kind?_ofCall e
  typing _ h := reported_typing h
  other h := ofCall_of_kind h
  once cause h := by rw [h, ofCall_ofCall]

end Failure

-- ====================================================== expressions without type errors

/-- An expression without an `import` form and without a `.` form, but for
what it quotes. -/
inductive Expr.Local : Code → Prop where
  | atom {code : Code} (h : ∀ mark items, code ≠ .list mark items) : Local code
  | quote (mark : Mark) (parts : List Code) : Local (.list mark (.symbol "quote" :: parts))
  | list {mark : Mark} {items : List Code} (himport : items.head? ≠ some (.symbol "import"))
      (hdot : items.head? ≠ some (.symbol ".")) (hitems : ∀ c ∈ items, Local c) :
      Local (.list mark items)

/-- What is inside a local expression is local, unless it is quoted. -/
theorem Expr.Local.items {mark : Mark} {head : Code} {rest : List Code}
    (h : Expr.Local (.list mark (head :: rest))) (hquote : head ≠ .symbol "quote") :
    head ≠ .symbol "import" ∧ head ≠ .symbol "." ∧ ∀ c ∈ head :: rest, Expr.Local c := by
  generalize hcode : Expr.list mark (head :: rest) = code at h
  cases h with
  | atom hatom => exact absurd hcode.symm (hatom mark (head :: rest))
  | quote =>
    cases hcode
    exact absurd rfl hquote
  | list himport hdot hitems =>
    cases hcode
    refine ⟨fun heq => himport ?_, fun heq => hdot ?_, hitems⟩
    · rw [heq]
      rfl
    · rw [heq]
      rfl

/-- An expression that is no keyword does not quote. -/
theorem Expr.ne_quote {head : Code} (h : head.isKeyword = false) : head ≠ .symbol "quote" := by
  rintro rfl
  cases h

/-- A form of the wrong shape is a syntax error. -/
theorem Expr.misshapen?_kind {cells : Cells} {form : Code} {items : List Code} {f : Fault}
    (h : Expr.misshapen? cells form items = some f) : f.kind = .malformed := by
  unfold Expr.misshapen? at h
  split at h
  · split at h
    · cases h
    · cases h
      rfl
    · cases h
      rfl
  · split at h
    · cases h
    · cases h
    · cases h
      rfl
  · split at h
    · split at h
      · cases h
        rfl
      · cases h
    · cases h
      rfl
    · cases h
      rfl
  · split at h
    · cases h
    · cases h
      rfl
  · cases h

/-- A failed row failed with its last visit. -/
theorem Row.failed_inside {codes : List Code} {m m' : Machine σ}
    {answer : Except Failure (List Value)} {inside : List (Visit σ)} {e : Failure}
    (h : Row codes m answer m' inside) (hanswer : answer = .error e) :
    ∃ v ∈ inside, v.code ∈ codes ∧ v.answer = .error e := by
  induction h with
  | nil => cases hanswer
  | failed code rest m e' m₁ =>
    cases hanswer
    exact ⟨_, List.mem_cons_self, List.mem_cons_self, rfl⟩
  | @cons code rest m v m₁ m₂ answer inside _ ih =>
    cases answer with
    | ok vs => cases hanswer
    | error e' =>
      cases hanswer
      obtain ⟨w, hw, hcode, hfailed⟩ := ih rfl
      exact ⟨w, List.mem_cons_of_mem _ hw, List.mem_cons_of_mem _ hcode, hfailed⟩

/-- A local expression that fails with a type error has it from a local
expression inside. -/
theorem Does.typing_inside {host : Host σ} {site : Site} {code : Code} {m m' : Machine σ}
    {answer : Except Failure Value} {inside : List (Visit σ)} {e : Failure}
    (h : Does host site code m answer m' inside) (hlocal : code.Local)
    (hanswer : answer = .error e) (hkind : e.kind? = some .typing) :
    ∃ v ∈ inside, v.code.Local ∧ v.answer = .error e := by
  -- the rules that fail by themselves fail with another kind, or are ruled out because the code
  -- is local; the others hand on the failure of a part
  cases h with
  | constant => cases hanswer
  | wide => cases hanswer
  | symbol name m =>
    unfold Frames.valueOf at hanswer
    split at hanswer
    · cases hanswer
    · split at hanswer
      · cases hanswer
      · cases hanswer
        cases hkind
  | empty => cases hanswer
  | misshapen hshape =>
    cases hanswer
    have hmalformed : some (Fault.kind _) = some Kind.typing := hkind
    rw [Expr.misshapen?_kind hshape] at hmalformed
    cases hmalformed
  | quote => cases hanswer
  | dotFailed => exact absurd rfl (hlocal.items (by simp)).2.1
  | dot => exact absurd rfl (hlocal.items (by simp)).2.1
  | testFailed _ test =>
    cases hanswer
    refine ⟨_, List.mem_cons_self, ?_, rfl⟩
    exact (hlocal.items (by simp)).2.2 test (by simp)
  | yes _ _ yes =>
    refine ⟨_, List.mem_cons_of_mem _ List.mem_cons_self, ?_, hanswer⟩
    exact (hlocal.items (by simp)).2.2 yes (by simp)
  | no _ _ _ no =>
    refine ⟨_, List.mem_cons_of_mem _ List.mem_cons_self, ?_, hanswer⟩
    exact (hlocal.items (by simp)).2.2 no (by simp)
  | neither => cases hanswer
  | defineFailed _ _ value =>
    cases hanswer
    refine ⟨_, List.mem_cons_self, ?_, rfl⟩
    exact (hlocal.items (by simp)).2.2 value (by simp)
  | define => cases hanswer
  | importPlain => exact absurd rfl (hlocal.items (by simp)).1
  | importFailed => exact absurd rfl (hlocal.items (by simp)).1
  | importNamed => exact absurd rfl (hlocal.items (by simp)).1
  | @headFailed _ head hhead =>
    cases hanswer
    refine ⟨_, List.mem_cons_self, ?_, rfl⟩
    exact (hlocal.items (Expr.ne_quote hhead)).2.2 head (by simp)
  | @argsFailed _ head hhead _ _ _ _ _ _ _ hargs =>
    cases hanswer
    obtain ⟨v, hv, hcode, hfailed⟩ := hargs.failed_inside rfl
    refine ⟨v, List.mem_cons_of_mem _ hv, ?_, hfailed⟩
    exact (hlocal.items (Expr.ne_quote hhead)).2.2 _ (List.mem_cons_of_mem _ hcode)
  | row => cases hanswer
  | callFailed =>
    cases hanswer
    exact absurd hkind (Failure.kind?_ofCall _)
  | call => cases hanswer

namespace Eval

variable {host : Host σ} {site : Site}

/-- A local expression never fails with a type error. -/
theorem kind_of_local {depth : Nat} {code : Code} (hlocal : code.Local) {m m' : Machine σ}
    {e : Failure} (h : eval host site depth code m = .done (.error e) m') :
    e.kind? ≠ some .typing := by
  induction depth generalizing code m m' with
  | zero => cases h
  | succ depth ih =>
    intro hkind
    obtain ⟨inside, hstep, hmade⟩ := step_iff.1 h
    cases hstep with
    | canceled => cases hkind
    | proceeds _ hdoes =>
      obtain ⟨v, hv, hlocal, hanswer⟩ := hdoes.typing_inside hlocal rfl hkind
      have hinner := hmade v hv
      unfold Visit.MadeBy at hinner
      rw [hanswer] at hinner
      exact ih hlocal hinner hkind

-- ====================================================== calls within calls

/-- `(cond 1 (quote …))` around an expression, some times over. -/
def shielded (mark : Mark) (code : Code) : Nat → Code
  | 0 => code
  | n + 1 =>
    .list mark [.symbol "cond", .int 1, .list mark [.symbol "quote", shielded mark code n]]

/-- `cond` goes on with what the shield is around. -/
theorem eval_shielding {depth : Nat} (code : Code) (m : Machine σ) :
    applyProc host site (eval host site depth) (quotedArgs m.cells (.int 1) code none)
      (.standard .cond) m = eval host site depth code m :=
  (congrFun (condProcedure_quoted (.int 1) (code.read m.cells) none) m).trans
    (eval_read host site depth code m.cells.covers_refl)

/-- What fails behind one shield: the machine was cancelled on the way, or
the expression failed and its failure is reported. -/
theorem apply_cond_failed {depth : Nat} {mark : Mark} {code : Code} {m m' : Machine σ}
    {e : Failure} (hcond : m.frames.lookup site.frame "cond" = some (.proc (.standard .cond)))
    (h : apply host site (eval host site depth) (.symbol "cond")
      [.int 1, .list mark [.symbol "quote", code]] m = .done (.error e) m') :
    e = .canceled ∨ ∃ m₀ e₀, m₀.frames = m.frames
      ∧ eval host site depth code m₀ = .done (.error e₀) m' ∧ e = e₀.ofCall := by
  have hargs : List.Forall₂ (Fixed host site (asked m).cells)
      [.int 1, .list mark [.symbol "quote", code]] [.int 1, .ofCode (code.read m.cells)] :=
    .cons (fun _ _ _ => rfl) (.cons (fixed_quote m.cells mark code) .nil)
  have hname : ∀ inner, proceed host site inner (.symbol "cond") (asked m) = _ :=
    proceed_symbol rfl hcond
  rcases bind_eq_done h with ⟨e', hhead, hfailed⟩ | ⟨v, m₁, hhead, hrest⟩
  · cases hfailed
    exact .inl (eval_still_failed hname hhead)
  · obtain ⟨rfl, rfl⟩ := eval_still_done hname hhead
    rcases bind_eq_done hrest with ⟨e', hcollect, hfailed⟩ | ⟨args, m₂, hcollect, -⟩
    · cases hfailed
      rcases collect_fixed hargs rfl hcollect with hcanceled | ⟨hvalue, -⟩
      · exact .inl (Except.error.inj hcanceled)
      · cases hvalue
    · rcases collect_fixed hargs rfl hcollect with hcanceled | ⟨hvalue, hframes, hcells⟩
      · cases hcanceled
      · cases hvalue
        -- the quoted expression is read once more as the call begins
        have hread : Value.readAll m₂.cells [.int 1, .ofCode (code.read m.cells)]
            = quotedArgs m₂.cells (.int 1) code none :=
          (congrArg (fun cells => Value.readAll m₂.cells [.int 1, .ofCode (code.read cells)])
            hcells.symm).trans (readAll_quoted m₂.cells (.int 1) code none)
        have hcall := (apply_of_proc hhead hcollect).symm.trans h
        rw [hread] at hcall
        obtain ⟨result, m₃, happly⟩ := exists_of_call hcall
        have hbranch := (eval_shielding code (m₂.noting _ _)).symm.trans happly
        cases result with
        | ok w => cases (call_done happly).symm.trans hcall
        | error e₀ =>
          cases (call_failed happly).symm.trans hcall
          exact .inr ⟨m₂.noting _ _, e₀, hframes, hbranch, rfl⟩

/-- What fails behind several shields fails behind one fewer, and is
reported. -/
theorem eval_shield_failed {depth n : Nat} {mark : Mark} {code : Code} {m m' : Machine σ}
    {e : Failure} (hcond : m.frames.lookup site.frame "cond" = some (.proc (.standard .cond)))
    (h : eval host site depth (shielded mark code (n + 1)) m = .done (.error e) m') :
    e = .canceled ∨ ∃ d m₀ e₀, m₀.frames = m.frames
      ∧ eval host site d (shielded mark code n) m₀ = .done (.error e₀) m' ∧ e = e₀.ofCall := by
  cases depth with
  | zero => cases h
  | succ depth =>
    rw [eval, step_eq] at h
    by_cases hasked : site.allows m
    · rw [bind_done (checkpoint_of_allows hasked)] at h
      have happly : apply host site (eval host site depth) (.symbol "cond")
          [.int 1, .list mark [.symbol "quote", shielded mark code n]] (asked m)
            = .done (.error e) m' := h
      have hvisible : (asked m).frames.lookup site.frame "cond" = _ := hcond
      rcases apply_cond_failed hvisible happly with hcanceled | ⟨m₀, e₀, hframes, hcode, rfl⟩
      · exact .inl hcanceled
      · exact .inr ⟨depth, m₀, e₀, hframes, hcode, rfl⟩
    · rw [bind_failed (checkpoint_of_not_allows hasked)] at h
      cases h
      exact .inl rfl

/-- A failure goes up through calls as the innermost of them reported
it. -/
theorem eval_shielded {depth n : Nat} {mark : Mark} {code : Code} {m m' : Machine σ} {e : Failure}
    (hcond : m.frames.lookup site.frame "cond" = some (.proc (.standard .cond)))
    (h : eval host site depth (shielded mark code (n + 1)) m = .done (.error e) m') :
    e = .canceled ∨ ∃ d m₀ e₀, m₀.frames = m.frames
      ∧ eval host site d code m₀ = .done (.error e₀) m' ∧ e = e₀.ofCall := by
  induction n generalizing depth m e with
  | zero => exact eval_shield_failed hcond h
  | succ n ih =>
    rcases eval_shield_failed hcond h with hcanceled | ⟨d, m₀, e₀, hframes, hinner, rfl⟩
    · exact .inl hcanceled
    · rcases ih (hframes ▸ hcond) hinner with rfl | ⟨d, m₁, e₁, hframes', hcode, rfl⟩
      · exact .inl rfl
      · exact .inr ⟨d, m₁, e₁, hframes'.trans hframes, hcode, Failure.ofCall_ofCall e₁⟩

/-- An expression that fails in some frames fails behind a shield, too. -/
theorem eval_shield_of_failed (hpatience : site.patience = none) {fs : Frames}
    (hcond : fs.lookup site.frame "cond" = some (.proc (.standard .cond))) {depth n : Nat}
    {mark : Mark} {code : Code} {e : Failure}
    (h : ∀ m, m.frames = fs →
      ∃ m', eval host site depth (shielded mark code n) m = .done (.error e) m')
    {m : Machine σ} (hm : m.frames = fs) :
    ∃ m', eval host site (depth + 1) (shielded mark code (n + 1)) m
      = .done (.error e.ofCall) m' := by
  cases depth with
  | zero =>
    obtain ⟨m', hspent⟩ := h m hm
    cases hspent
  | succ depth =>
    have htest : eval host site (depth + 1) (.int 1) (asked (asked m))
        = .done (.ok (.int 1)) (asked (asked (asked m))) := eval_fixed hpatience rfl
    obtain ⟨m', hcode⟩ := h
      ((askedTimes 1 (asked (asked (asked m)))).noting (.standard .cond)
        (quotedArgs m.cells (.int 1) (shielded mark code n) none)) hm
    refine ⟨m', ?_⟩
    rw [shielded, eval_cond hpatience (hm ▸ hcond) (.two mark mark mark)]
    refine (bind_done htest).trans (call_failed ?_)
    exact (eval_shielding (shielded mark code n) _).trans hcode

/-- However many shields there are, it is reported as behind one. -/
theorem eval_shielded_of_failed (hpatience : site.patience = none) {fs : Frames}
    (hcond : fs.lookup site.frame "cond" = some (.proc (.standard .cond))) {depth : Nat}
    {mark : Mark} {code : Code} {e : Failure}
    (h : ∀ m, m.frames = fs → ∃ m', eval host site depth code m = .done (.error e) m')
    (n : Nat) {m : Machine σ} (hm : m.frames = fs) :
    ∃ m', eval host site (depth + n + 1) (shielded mark code (n + 1)) m
      = .done (.error e.ofCall) m' := by
  induction n generalizing m with
  | zero => exact eval_shield_of_failed (n := 0) hpatience hcond h hm
  | succ n ih =>
    rw [← Failure.ofCall_ofCall]
    exact eval_shield_of_failed hpatience hcond (fun m hm => ih hm) hm

/-- No call leaks a type error. A call whose procedure fails reports the
failure: never as a type error, a type error as a name error with its
message, and all else as it is. Behind any number of calls of `cond` it is
reported as if there were one. An expression without an `import` form and
without a `.` form never fails with a type error. -/
theorem calls_leak_no_type_error (host : Host σ) (site : Site) :
    (∀ (inner : Inner σ) (head : Code) (rest : List Code) (p : Proc) (args : List Value)
        (e : Failure) (m m₁ m₂ m₃ : Machine σ),
      inner head m = .done (.ok (.proc p)) m₁ → collect inner rest m₁ = .done (.ok args) m₂ →
      applyProc host site inner (Value.readAll m₂.cells args) (p.read m₂.cells)
        (m₂.noting (p.read m₂.cells) (Value.readAll m₂.cells args)) = .done (.error e) m₃ →
      ∃ reported, apply host site inner head rest m = .done (.error reported) m₃
        ∧ e.ReportedAs reported)
    ∧ (∀ (depth n : Nat) (mark : Mark) (code : Code) (m m' : Machine σ) (e : Failure),
      m.frames.lookup site.frame "cond" = some (.proc (.standard .cond)) →
      eval host site depth (shielded mark code (n + 1)) m = .done (.error e) m' →
      e = .canceled ∨ ∃ d m₀ e₀, m₀.frames = m.frames
        ∧ eval host site d code m₀ = .done (.error e₀) m' ∧ e = e₀.ofCall
        ∧ e₀.ReportedAs e)
    ∧ ∀ (depth : Nat) (code : Code) (m m' : Machine σ) (e : Failure), code.Local →
      eval host site depth code m = .done (.error e) m' → e.kind? ≠ some .typing := by
  refine ⟨?_, ?_, ?_⟩
  · intro inner head rest p args e m m₁ m₂ m₃ hhead hargs happly
    refine ⟨e.ofCall, ?_, e.reportedAs_ofCall⟩
    rw [apply_of_proc hhead hargs, call_failed happly]
  · intro depth n mark code m m' e hcond h
    rcases eval_shielded hcond h with hcanceled | ⟨d, m₀, e₀, hframes, hcode, rfl⟩
    · exact .inl hcanceled
    · exact .inr ⟨d, m₀, e₀, hframes, hcode, rfl, e₀.reportedAs_ofCall⟩
  · intro depth code m m' e hlocal h
    exact kind_of_local hlocal h

/-- `(* 1 2 3)` -/
def product : Code :=
  .list .blank [.symbol "*", .int 1, .int 2, .int 3]

/-- `*` does not take three arguments. -/
theorem product_parts (m : Machine Platform) (hm : m.frames = opened.frames) :
    eval Platform.host ⟨0, 0, none⟩ 1 (.symbol "*") m
      = .done (.ok (.proc (.standard .mul))) (asked m)
    ∧ collect (eval Platform.host ⟨0, 0, none⟩ 1) [.int 1, .int 2, .int 3] (asked m)
      = .done (.ok [.int 1, .int 2, .int 3]) (askedTimes 3 (asked m))
    ∧ ∀ m', applyProc Platform.host ⟨0, 0, none⟩ (eval Platform.host ⟨0, 0, none⟩ 1)
        [.int 1, .int 2, .int 3] (.standard .mul) m'
      = .done (.error (.fault (.arity "mul" (.exactly 2) 3))) m' := by
  have hpatience : (⟨0, 0, none⟩ : Site).patience = none := rfl
  have hstar : (asked m).frames.lookup 0 "*" = some (.proc (.standard .mul)) := by
    show m.frames.lookup 0 "*" = _
    rw [hm]
    exact Frames.lookup_of_root rfl "*"
  exact ⟨eval_fixed hpatience (proceed_symbol rfl hstar _), rfl, fun _ => rfl⟩

/-- So a product of three numbers fails, and the caller reports it. -/
theorem eval_product (m : Machine Platform) (hm : m.frames = opened.frames) :
    ∃ m', eval Platform.host ⟨0, 0, none⟩ 2 product m
      = .done (.error (.recast (.fault (.arity "mul" (.exactly 2) 3)))) m' := by
  obtain ⟨hhead, hargs, happly⟩ := product_parts (asked m) hm
  exact ⟨_, (apply_of_proc hhead hargs).trans (call_failed (happly _))⟩

/-- A product has neither an `import` form nor a `.` form. -/
theorem local_product : Expr.Local product := by
  refine .list (by simp) (by simp) fun c hc => .atom ?_
  intro mark items heq
  simp [heq] at hc

/-- `(* 1 2 3)`, by itself and within two calls of `cond`. -/
theorem calls_leak_no_type_error_product :
    (∃ reported m', apply Platform.host ⟨0, 0, none⟩ (eval Platform.host ⟨0, 0, none⟩ 1)
        (.symbol "*") [.int 1, .int 2, .int 3] opened = .done (.error reported) m'
      ∧ reported.message = "NameError: mul() takes exactly 2 arguments (3 given)"
      ∧ reported.has .name = true ∧ reported.has .typing = true)
    ∧ (∃ e m', eval Platform.host ⟨0, 0, none⟩ 4 (shielded .blank product 2) opened
        = .done (.error e) m'
      ∧ (e = .canceled ∨ ∃ d m₀ e₀, m₀.frames = opened.frames
        ∧ eval Platform.host ⟨0, 0, none⟩ d product m₀ = .done (.error e₀) m' ∧ e = e₀.ofCall
        ∧ e₀.ReportedAs e))
    ∧ ∃ e m', eval Platform.host ⟨0, 0, none⟩ 2 product opened = .done (.error e) m'
      ∧ e.kind? ≠ some .typing := by
  obtain ⟨hcalls, hshields, hlocal⟩ := calls_leak_no_type_error Platform.host ⟨0, 0, none⟩
  have hpatience : (⟨0, 0, none⟩ : Site).patience = none := rfl
  have hcond : opened.frames.lookup 0 "cond" = some (.proc (.standard .cond)) :=
    Frames.lookup_of_root rfl "cond"
  refine ⟨?_, ?_, ?_⟩
  · obtain ⟨hhead, hargs, happly⟩ := product_parts opened rfl
    obtain ⟨reported, hrun, hreported⟩ := hcalls _ _ _ _ _ _ _ _ _ _ hhead hargs (happly _)
    obtain ⟨-, hmessage, hname, htyping⟩ := hreported.typing _ rfl
    exact ⟨reported, _, hrun, hmessage, hname, htyping⟩
  · obtain ⟨m', hrun⟩ := eval_shielded_of_failed hpatience hcond eval_product 1 rfl
    exact ⟨_, m', hrun, hshields _ _ _ _ _ _ _ hcond hrun⟩
  · obtain ⟨m', hrun⟩ := eval_product opened rfl
    exact ⟨_, m', hrun, hlocal _ _ _ _ _ local_product hrun⟩

end Eval

end LispShell
