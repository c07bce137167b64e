/-
A quoted wide integer is as good as its value.

An integer that does not fit 64 bits is `wide`; while it is quoted it is a
`literal`. The standard procedures look at their arguments through few
questions: which number it is, whether it counts as true, of which type it
is, how it is written. None of these tells the two apart
(`Value.unquoted`), and where values are compared item by item one of them
is no number, which both are. So a procedure does the same whichever it is
given, and a list holds what it was given.

Only `cond` can tell. It evaluates the branch that it picks if that is an
expression, and a literal is one. What it gives is the integer all the
same, one of its own that holds the same number, but the machine is asked
once more whether to go on, and the answer can be no
(`cond_tells_literals`).
-/
import LispShell.Proofs.Branches

namespace LispShell

variable {σ : Type}

-- ====================================================== literals and what they stand for

namespace Value

/-- A literal as the integer that it stands for, whichever integer that is,
and any other value as it is. -/
def unquoted : Value → Value
  | .literal _ n => .wide .blank n
  | .wide _ n => .wide .blank n
  | v => v

/-- The second value is the first one, or the first one is a literal and the
second an integer that holds the same number now. -/
inductive Unquotes (cells : Cells) : Value → Value → Prop where
  | same (v : Value) : Unquotes cells v v
  | literal {mark mark' : Mark} {n : Int} (hliteral : cells.whole mark n = n)
      (hinteger : cells.whole mark' n = n) : Unquotes cells (.literal mark n) (.wide mark' n)

/-- What stands for the other is the same once neither is quoted. -/
theorem Unquotes.unquoted_eq {cells : Cells} {v w : Value} (h : v.Unquotes cells w) :
    v.unquoted = w.unquoted := by
  cases h with
  | same => rfl
  | literal => rfl

/-- The same, one argument after the other. -/
theorem map_unquoted_eq {cells : Cells} {args args' : List Value}
    (h : List.Forall₂ (Unquotes cells) args args') :
    args.map unquoted = args'.map unquoted := by
  induction h with
  | nil => rfl
  | cons hv _ ih => rw [List.map_cons, List.map_cons, hv.unquoted_eq, ih]

@[simp]
theorem number?_unquoted (v : Value) : v.unquoted.number? = v.number? := by
  cases v <;> rfl

@[simp]
theorem integer?_unquoted (v : Value) : v.unquoted.integer? = v.integer? := by
  simp only [integer?, number?_unquoted]

@[simp]
theorem isNaN_unquoted (v : Value) : v.unquoted.isNaN = v.isNaN := by
  cases v <;> rfl

@[simp]
theorem truthy_unquoted (v : Value) : v.unquoted.truthy = v.truthy := by
  cases v <;> rfl

@[simp]
theorem typeName_unquoted (v : Value) : v.unquoted.typeName = v.typeName := by
  cases v <;> rfl

@[simp]
theorem format_unquoted (v : Value) : v.unquoted.format = v.format := by
  cases v <;> rfl

@[simp]
theorem unquoted_eq_text {v : Value} {s : String} : v.unquoted = .text s ↔ v = .text s := by
  cases v <;> simp [unquoted]

@[simp]
theorem unquoted_eq_sequence {v : Value} {mark : Mark} {items : List Value} :
    v.unquoted = .sequence mark items ↔ v = .sequence mark items := by
  cases v <;> simp [unquoted]

/-- A number is never the same as something else. -/
theorem same_of_number? {v w : Value} (shared : Bool)
    (h : v.number?.isSome ≠ w.number?.isSome) : v.same shared w = false := by
  unfold same
  split <;> simp [number?] at h ⊢

/-- What is no number is not quoted. -/
theorem unquoted_of_number? {v : Value} (h : v.number? = none) : v.unquoted = v := by
  cases v with
  | literal mark n => cases h
  | wide mark n => cases h
  | _ => rfl

/-- Where one of two values is no number, being quoted makes no difference
to whether they are the same. -/
theorem same_unquoted {v w : Value} (shared : Bool) (h : v.number? = none ∨ w.number? = none) :
    v.unquoted.same shared w.unquoted = v.same shared w := by
  by_cases hkind : v.number?.isSome = w.number?.isSome
  · have hnone : v.number? = none ∧ w.number? = none := by
      rcases h with h | h
      · exact ⟨h, by simpa [h] using hkind⟩
      · exact ⟨by simpa [h] using hkind, h⟩
    rw [unquoted_of_number? hnone.1, unquoted_of_number? hnone.2]
  · rw [same_of_number? shared hkind, same_of_number? shared (by simpa using hkind)]

end Value

-- ====================================================== arguments

/-- One argument is taken first and seen without its quote then. -/
theorem oneArg_unquoted {α : Type} (procedure : String) (args : List Value)
    (f : Value → Except Fault α) :
    (oneArg procedure (args.map Value.unquoted) >>= f)
      = oneArg procedure args >>= fun a => f a.unquoted := by
  match args with
  | [] => rfl
  | [a] => rfl
  | a :: b :: rest => simp [oneArg]; rfl

/-- So are two. -/
theorem twoArgs_unquoted {α : Type} (procedure : String) (args : List Value)
    (f : Value × Value → Except Fault α) :
    (twoArgs procedure (args.map Value.unquoted) >>= f)
      = twoArgs procedure args >>= fun ab => f (ab.1.unquoted, ab.2.unquoted) := by
  match args with
  | [] => rfl
  | [a] => rfl
  | [a, b] => rfl
  | a :: b :: c :: rest => simp [twoArgs]; rfl

/-- There are as many arguments without quotes. -/
theorem checkArity_unquoted (procedure : String) (takes : Arity) (args : List Value) :
    checkArity procedure takes (args.map Value.unquoted) = checkArity procedure takes args := by
  simp only [checkArity, List.length_map]

/-- An operand is the same without its quote. -/
@[simp]
theorem operand_unquoted (procedure : String) (v : Value) :
    operand procedure v.unquoted = operand procedure v := by
  simp only [operand, Value.number?_unquoted, Value.typeName_unquoted]

@[simp]
theorem realArg_unquoted (procedure : String) (v : Value) :
    realArg procedure v.unquoted = realArg procedure v := by
  simp only [realArg, Value.number?_unquoted, Value.typeName_unquoted]

namespace Standard

theorem arithmetic_unquoted (procedure : String) (op : Number → Number → Number)
    (args : List Value) :
    arithmetic procedure op (args.map Value.unquoted) = arithmetic procedure op args := by
  simp only [arithmetic, twoArgs_unquoted, operand_unquoted]

theorem division_unquoted (args : List Value) :
    division (args.map Value.unquoted) = division args := by
  simp only [division, twoArgs_unquoted, realArg_unquoted]

theorem modulo_unquoted (args : List Value) :
    modulo (args.map Value.unquoted) = modulo args := by
  simp only [modulo, twoArgs_unquoted, realArg_unquoted, Value.integer?_unquoted]

theorem power_unquoted (args : List Value) :
    power (args.map Value.unquoted) = power args := by
  simp only [power, twoArgs_unquoted, realArg_unquoted, Value.integer?_unquoted]

/-- Texts and sequences are joined, and these are never quoted numbers. -/
theorem addition_unquoted (args : List Value) :
    addition (args.map Value.unquoted) = addition args := by
  unfold addition
  split
  · next x y hargs =>
    obtain ⟨a, _, rfl, ha, hrest⟩ := List.map_eq_cons_iff.1 hargs
    obtain ⟨b, _, rfl, hb, hnil⟩ := List.map_eq_cons_iff.1 hrest
    obtain rfl := List.map_eq_nil_iff.1 hnil
    rw [Value.unquoted_eq_text.1 ha, Value.unquoted_eq_text.1 hb]
  · next x mark' y hargs =>
    obtain ⟨a, _, rfl, ha, hrest⟩ := List.map_eq_cons_iff.1 hargs
    obtain ⟨b, _, rfl, hb, hnil⟩ := List.map_eq_cons_iff.1 hrest
    obtain rfl := List.map_eq_nil_iff.1 hnil
    rw [Value.unquoted_eq_sequence.1 ha, Value.unquoted_eq_sequence.1 hb]
  · next htexts hsequences =>
    rw [arithmetic_unquoted]
    split
    · exact absurd rfl (htexts _ _)
    · exact absurd rfl (hsequences _ _ _ _)
    · rfl

/-- Numbers are compared as such, and where one side is none, the other is
different from it in either form. -/
theorem equals_unquoted (v w : Value) : equals v.unquoted w.unquoted = equals v w := by
  unfold equals
  simp only [Value.isNaN_unquoted, Value.number?_unquoted]
  split
  · rfl
  · split
    · rfl
    · next hnumbers =>
      refine Value.same_unquoted false ?_
      by_contra hboth
      obtain ⟨x, hx⟩ := Option.ne_none_iff_exists'.1 (not_or.1 hboth).1
      obtain ⟨y, hy⟩ := Option.ne_none_iff_exists'.1 (not_or.1 hboth).2
      exact hnumbers x y hx hy

theorem equality_unquoted (args : List Value) :
    equality (args.map Value.unquoted) = equality args := by
  simp only [equality, twoArgs_unquoted, equals_unquoted]

/-- Texts are compared as such, and all else as numbers. -/
theorem comparison_unquoted (o : Order) (args : List Value) :
    comparison o (args.map Value.unquoted) = comparison o args := by
  unfold comparison
  rw [twoArgs_unquoted]
  refine congrArg _ (funext fun ⟨a, b⟩ => ?_)
  dsimp only
  split
  · next s t ha hb => rw [Value.unquoted_eq_text.1 ha, Value.unquoted_eq_text.1 hb]
  · next htexts =>
    split
    · exact absurd rfl (htexts _ _ rfl)
    · simp only [operand_unquoted, Value.isNaN_unquoted]

theorem negation_unquoted (args : List Value) :
    negation (args.map Value.unquoted) = negation args := by
  simp only [negation, oneArg_unquoted, Value.truthy_unquoted]

theorem length_unquoted (args : List Value) : length (args.map Value.unquoted) = length args := by
  unfold length
  rw [oneArg_unquoted]
  refine congrArg _ (funext fun v => ?_)
  cases v <;> rfl

theorem unaryFunction_unquoted (f : Unary) (args : List Value) :
    unaryFunction f (args.map Value.unquoted) = unaryFunction f args := by
  simp only [unaryFunction, oneArg_unquoted, realArg_unquoted]

theorem binaryFunction_unquoted (f : Binary) (args : List Value) :
    binaryFunction f (args.map Value.unquoted) = binaryFunction f args := by
  simp only [binaryFunction, twoArgs_unquoted, realArg_unquoted]

theorem wholeFunction_unquoted (f : Whole) (args : List Value) :
    wholeFunction f (args.map Value.unquoted) = wholeFunction f args := by
  simp only [wholeFunction, oneArg_unquoted, realArg_unquoted, Value.integer?_unquoted]

theorem realTest_unquoted (f : RealTest) (args : List Value) :
    realTest f (args.map Value.unquoted) = realTest f args := by
  simp only [realTest, oneArg_unquoted, realArg_unquoted]

theorem logarithm_unquoted (args : List Value) :
    logarithm (args.map Value.unquoted) = logarithm args := by
  simp only [logarithm, checkArity_unquoted]
  match args with
  | [] => rfl
  | [a] => simp only [List.map_cons, List.map_nil, List.headD_cons, realArg_unquoted, List.drop]
  | a :: b :: rest => simp only [List.map_cons, List.headD_cons, realArg_unquoted, List.drop]

theorem factorialOf_unquoted (args : List Value) :
    factorialOf (args.map Value.unquoted) = factorialOf args := by
  unfold factorialOf
  rw [oneArg_unquoted]
  refine congrArg _ (funext fun v => ?_)
  cases v <;> rfl

theorem commonDivisor_unquoted (args : List Value) :
    commonDivisor (args.map Value.unquoted) = commonDivisor args := by
  simp only [commonDivisor, twoArgs_unquoted, Value.integer?_unquoted, Value.typeName_unquoted]

end Standard

namespace Eval

variable {host : Host σ} {site : Site} {inner : Inner σ}

/-- What is printed is the same. -/
theorem print_unquoted (args : List Value) :
    (print (args.map Value.unquoted) : Eval σ Value) = print args := by
  have hformat : Value.format ∘ Value.unquoted = Value.format := funext Value.format_unquoted
  simp only [print, List.map_map, hformat]

/-- Neither has a listing. -/
theorem dirProcedure_unquoted (args : List Value) :
    dirProcedure host site (args.map Value.unquoted) = dirProcedure host site args := by
  simp only [dirProcedure, checkArity_unquoted]
  refine congrArg _ (funext fun _ => congrArg _ (funext fun m => ?_))
  cases args with
  | nil => rfl
  | cons v rest => cases v <;> rfl

-- ====================================================== the branch that is picked

/-- The branch that `cond` picks. -/
def branchOf : List Value → Value
  | [test, yes] => if test.truthy then yes else .bool false
  | [test, yes, no] => if test.truthy then yes else no
  | _ => .nil

/-- Goes on with a branch: what is an expression is evaluated. -/
def goOn (inner : Inner σ) (v : Value) : Eval σ Value :=
  match v.toCode? with
  | some code => inner code
  | none => return v

/-- `cond` picks a branch and goes on with it. -/
theorem condProcedure_eq (args : List Value) :
    condProcedure inner args
      = Eval.bind (ofResult (checkArity "cond" (.between 2 3) args)) fun _ =>
          goOn inner (branchOf args) := by
  rfl

/-- What is picked is what was given at one place. -/
theorem branchOf_unquotes {cells : Cells} {args args' : List Value}
    (h : List.Forall₂ (Value.Unquotes cells) args args') :
    (branchOf args).Unquotes cells (branchOf args') := by
  match h with
  | .nil => exact .same _
  | .cons _ .nil => exact .same _
  | .cons (a := test) (b := test') htest (.cons hyes .nil) =>
    have htruthy : test'.truthy = test.truthy := by
      rw [← Value.truthy_unquoted test', ← htest.unquoted_eq, Value.truthy_unquoted]
    simp only [branchOf, htruthy]
    split
    · exact hyes
    · exact .same _
  | .cons (a := test) (b := test') htest (.cons hyes (.cons hno .nil)) =>
    have htruthy : test'.truthy = test.truthy := by
      rw [← Value.truthy_unquoted test', ← htest.unquoted_eq, Value.truthy_unquoted]
    simp only [branchOf, htruthy]
    split
    · exact hyes
    · exact hno
  | .cons _ (.cons _ (.cons _ (.cons _ _))) => exact .same _

-- ====================================================== what procedures do

/-- But for `list` and `cond`, the procedures see no quotes. -/
theorem applyStandard_unquoted (args : List Value) {p : Standard} (hlist : p ≠ .list)
    (hcond : p ≠ .cond) :
    applyStandard host site inner (args.map Value.unquoted) p
      = applyStandard host site inner args p := by
  cases p with
  | list => exact absurd rfl hlist
  | cond => exact absurd rfl hcond
  | print => exact print_unquoted args
  | dir => exact dirProcedure_unquoted args
  | _ => simp only [applyStandard, Standard.addition_unquoted, Standard.arithmetic_unquoted,
      Standard.division_unquoted, Standard.modulo_unquoted, Standard.power_unquoted,
      Standard.equality_unquoted, Standard.comparison_unquoted, Standard.negation_unquoted,
      Standard.length_unquoted, Standard.unaryFunction_unquoted, Standard.binaryFunction_unquoted,
      Standard.wholeFunction_unquoted, Standard.realTest_unquoted, Standard.logarithm_unquoted,
      Standard.factorialOf_unquoted, Standard.commonDivisor_unquoted]

/-- There are as many arguments as before. -/
theorem arity_unquotes {cells : Cells} {args args' : List Value}
    (h : List.Forall₂ (Value.Unquotes cells) args args') {procedure : String} {takes : Arity} :
    checkArity procedure takes args = checkArity procedure takes args' := by
  rw [← checkArity_unquoted, Value.map_unquoted_eq h, checkArity_unquoted]

/-- A standard procedure cannot tell literals, if it does not list them and
does not pick one as a branch. -/
theorem applyStandard_unquotes {cells : Cells} {args args' : List Value}
    (h : List.Forall₂ (Value.Unquotes cells) args args') {p : Standard} (hlist : p ≠ .list)
    (hcond : p = .cond → branchOf args = branchOf args') :
    applyStandard host site inner args p = applyStandard host site inner args' p := by
  by_cases hp : p = .cond
  · subst hp
    simp only [applyStandard, condProcedure_eq, arity_unquotes h, hcond rfl]
  · rw [← applyStandard_unquoted args hlist hp, Value.map_unquoted_eq h,
      applyStandard_unquoted args' hlist hp]

end Eval

-- ====================================================== runs in step

/-- Machines that are the same, were asked equally often, and to which the
same happened since their journals were the given ones. -/
structure Machine.InStep (past past' : List Event) (m m' : Machine σ) : Prop
    extends SameSince past past' m m' where
  queries : m'.queries = m.queries

namespace Machine.InStep

/-- Machines in step are alike in all that an evaluation looks at. -/
theorem likeness (past past' : List Event) : @Likeness σ (InStep past past') where
  frames h := h.frames
  imports h := h.imports
  host h := h.host
  cells h := h.cells
  made h := h.made
  change h frames imports host cells made events :=
    ⟨(SameSince.likeness past past').change h.toSameSince frames imports host cells made events,
      h.queries⟩

theorem asked {past past' : List Event} {m m' : Machine σ} (h : InStep past past' m m') :
    InStep past past' (Eval.asked m) (Eval.asked m') :=
  ⟨h.toSameSince.asked, congrArg (· + 1) h.queries⟩

/-- Evaluations of machines in step give up at the same question, if they
do. -/
theorem simulation (host : Host σ) (site : Site) (past past' : List Event) :
    Simulation host site site (InStep past past') :=
  (likeness past past').simulation host (.checkpoint _ (fun h => h.queries) fun h => h.asked)

end Machine.InStep

/-- Showing the same goes both ways. -/
theorem Machine.Even.symm {m m' : Machine σ} (h : m.Even m') : m'.Even m :=
  ⟨⟨h.frames.symm, h.imports.symm, h.host.symm, h.cells.symm, h.printed.symm⟩, h.made.symm⟩

/-- What a call was made with shows nothing. -/
theorem Machine.even_noting (m : Machine σ) (p : Proc) (args args' : List Value) :
    (m.noting p args).Even (m.noting p args') :=
  ((Even.refl m).noting p args).symm.noting p args'

namespace Eval

variable {host : Host σ} {site : Site} {depth : Nat} {m : Machine σ} {args args' : List Value}

/-- Calls that come to the same leave machines that show the same. -/
theorem call_even {p : Proc}
    (h : applyProc host site (eval host site depth) args p
      = applyProc host site (eval host site depth) args' p) :
    (call host site (eval host site depth) p args m).Alike Machine.Even
      (call host site (eval host site depth) p args' m) := by
  have hstart : Machine.InStep (m.noting p args).journal (m.noting p args').journal
      (m.noting p args) (m.noting p args') :=
    ⟨⟨rfl, rfl, rfl, rfl, rfl, [], rfl, rfl⟩, rfl⟩
  have hprinted := (m.even_noting p args args').printed
  have sim := Machine.InStep.simulation host site (m.noting p args).journal
    (m.noting p args').journal
  have happly := sim.applyProc (sim.eval depth) args p
  have hrun := (happly.mapFailure Failure.ofCall).bind (fun v => sim.settle v) _ _ hstart
  have heven := hrun.mono fun h => Machine.Even.of_since h.toSameSince hprinted
  show (Eval.bind (mapFailure Failure.ofCall (applyProc host site (eval host site depth) args p))
      (settle site.session) (m.noting p args)).Alike Machine.Even
    (Eval.bind (mapFailure Failure.ofCall (applyProc host site (eval host site depth) args' p))
      (settle site.session) (m.noting p args'))
  rw [← h]
  exact heven

/-- `list` makes a sequence of what it is given. -/
theorem call_list (inner : Inner σ) :
    call host site inner (.standard .list) args m
      = .done (.ok (.sequence (.made site.session (m.serial site.session)) args))
          { m.noting (.standard .list) args with made := m.made + 1 } :=
  rfl

/-- With as many arguments as it takes, `cond` goes on with the branch. -/
theorem applyProc_cond {inner : Inner σ} (h : checkArity "cond" (.between 2 3) args = .ok ()) :
    applyProc host site inner args (.standard .cond) = goOn inner (branchOf args) := by
  rw [applyProc, applyStandard, condProcedure_eq, h]
  rfl

/-- A literal can be picked only from as many arguments as `cond` takes. -/
theorem arity_of_literal {mark : Mark} {n : Int} (h : branchOf args = .literal mark n) :
    checkArity "cond" (.between 2 3) args = .ok () := by
  match args with
  | [] => cases h
  | [_] => cases h
  | [_, _] => rfl
  | [_, _, _] => rfl
  | _ :: _ :: _ :: _ :: _ => cases h

/-- The evaluation of a literal asks once and gives a new integer that holds
what the literal holds. -/
theorem eval_wide_of_allows (h : site.allows m) (mark : Mark) (n : Int) :
    eval host site (depth + 1) (.wide mark n) m
      = .done (.ok (.wide (.made site.session (m.serial site.session)) (m.cells.whole mark n)))
          { asked m with made := m.made + 1 } :=
  (bind_done (checkpoint_of_allows h)).trans (wideLiteral_eq mark n (asked m))

/-- It gives nothing if it may not go on. -/
theorem eval_wide_of_not_allows (h : ¬site.allows m) (mark : Mark) (n : Int) :
    eval host site (depth + 1) (.wide mark n) m = .done (.error .canceled) (asked m) :=
  bind_failed (checkpoint_of_not_allows h)

-- ====================================================== calls

/-- How a call ends with literals among its arguments, and how with the
integers that they stand for. -/
inductive Unquoted (site : Site) (m : Machine σ) (args args' : List Value) :
    Standard → Outcome σ Value → Outcome σ Value → Prop where
  /-- With the same value or the same failure, and machines that show the
  same. -/
  | same {p : Standard} (hlist : p ≠ .list) {x y : Outcome σ Value} (h : x.Alike Machine.Even y) :
      Unquoted site m args args' p x y
  /-- A list holds what it was given. -/
  | list (mark : Mark) {m₁ m₂ : Machine σ} (h : m₁.Even m₂) :
      Unquoted site m args args' .list (.done (.ok (.sequence mark args)) m₁)
        (.done (.ok (.sequence mark args')) m₂)
  /-- The branch is a literal, and both give an integer that holds its
  number. -/
  | picked {mark mark' new new' : Mark} {n : Int} (hliteral : branchOf args = .literal mark n)
      (hinteger : branchOf args' = .wide mark' n) {m₁ m₂ : Machine σ} (h : m₁.Agree m₂)
      (hnew : m₁.cells.whole new n = n) (hnew' : m₂.cells.whole new' n = n) :
      Unquoted site m args args' .cond (.done (.ok (.wide new n)) m₁)
        (.done (.ok (.wide new' n)) m₂)
  /-- The branch is a literal, and its evaluation was not to go on. -/
  | interrupted {mark mark' new' : Mark} {n : Int} (hliteral : branchOf args = .literal mark n)
      (hinteger : branchOf args' = .wide mark' n) (hstop : ¬site.allows m) {m₁ m₂ : Machine σ}
      (h : m₁.Agree m₂) (hnew' : m₂.cells.whole new' n = n) :
      Unquoted site m args args' .cond (.done (.error .canceled) m₁)
        (.done (.ok (.wide new' n)) m₂)

/-- An integer that is handed on holds what it did, also if it gets its
identity then. -/
theorem wide_identify {mark : Mark} {n : Int} (session : Nat) (h : m.cells.whole mark n = n) :
    ∃ new, (Value.wide mark n).identify (.made session (m.serial session)) = .wide new n
      ∧ m.cells.whole new n = n := by
  by_cases hblank : mark = .blank
  · subst hblank
    exact ⟨_, rfl, Cells.whole_of_after_le (Nat.le_add_left _ _) n⟩
  · have hold : (Value.wide mark n).isNew = false := by
      cases mark with
      | blank => exact absurd rfl hblank
      | _ => rfl
    exact ⟨mark, Value.identify_of_not_isNew hold _, h⟩

/-- The branch is a literal on the one side and its integer on the other. -/
theorem call_cond_literal {mark mark' : Mark} {n : Int}
    (harity : checkArity "cond" (.between 2 3) args' = .ok ())
    (hliteral : branchOf args = .literal mark n) (hinteger : branchOf args' = .wide mark' n)
    (hholds : m.cells.whole mark n = n) (hholds' : m.cells.whole mark' n = n) :
    Unquoted site m args args' .cond
      (call host site (eval host site (depth + 1)) (.standard .cond) args m)
      (call host site (eval host site (depth + 1)) (.standard .cond) args' m) := by
  have hleft : applyProc host site (eval host site (depth + 1)) args (.standard .cond)
      (m.noting (.standard .cond) args)
      = eval host site (depth + 1) (.wide mark n) (m.noting (.standard .cond) args) := by
    rw [applyProc_cond (arity_of_literal hliteral), hliteral]
    rfl
  have hright : applyProc host site (eval host site (depth + 1)) args' (.standard .cond)
      (m.noting (.standard .cond) args')
      = .done (.ok (.wide mark' n)) (m.noting (.standard .cond) args') := by
    rw [applyProc_cond harity, hinteger]
    rfl
  have hagree : (asked (m.noting (.standard .cond) args)).Agree
      ((m.noting (.standard .cond) args').settling (.wide mark' n)) :=
    agree_settling (m.even_noting (.standard .cond) args' args).asked.symm _
  -- what is handed on may get its identity only now
  obtain ⟨new', hidentify, hnew'⟩ :=
    wide_identify (m := m.noting (.standard .cond) args') site.session hholds'
  have hkept : ((m.noting (.standard .cond) args').settling (.wide mark' n)).cells.whole new' n
      = n := by
    rw [hagree.cells]
    exact hnew'
  rw [call_done hright, hidentify]
  by_cases hasked : site.allows (m.noting (.standard .cond) args)
  · have hvalue := hleft.trans (eval_wide_of_allows hasked mark n)
    rw [show (m.noting (.standard .cond) args).cells.whole mark n = n from hholds] at hvalue
    rw [call_done hvalue]
    exact .picked hliteral hinteger { hagree with }
      (Cells.whole_of_after_le (Nat.le_add_left _ _) n) hkept
  · rw [call_failed (hleft.trans (eval_wide_of_not_allows hasked mark n))]
    have hstop : ¬site.allows m := hasked
    exact .interrupted hliteral hinteger hstop hagree hkept

/-- Literals among the arguments of a standard procedure can be replaced by
the integers that they stand for. The procedure is called by an evaluation
that has evaluated its name, so what it evaluates itself has some depth. -/
theorem call_unquoted (host : Host σ) (site : Site) (depth : Nat) (p : Standard)
    {args args' : List Value} (m : Machine σ)
    (h : List.Forall₂ (Value.Unquotes m.cells) args args') :
    Unquoted site m args args' p
      (call host site (eval host site (depth + 1)) (.standard p) args m)
      (call host site (eval host site (depth + 1)) (.standard p) args' m) := by
  by_cases hlist : p = .list
  · subst hlist
    rw [call_list, call_list]
    have heven := m.even_noting (.standard .list) args args'
    exact .list _ { heven with made := rfl }
  · by_cases hbranch : p = .cond → branchOf args = branchOf args'
    · exact .same hlist (call_even (applyStandard_unquotes h hlist hbranch))
    · obtain ⟨rfl, hdiffers⟩ := Classical.not_imp.1 hbranch
      have hunquotes := branchOf_unquotes h
      generalize hleft : branchOf args = v at hunquotes hdiffers
      generalize hright : branchOf args' = w at hunquotes hdiffers
      cases hunquotes with
      | same => exact absurd rfl hdiffers
      | literal hholds hholds' =>
        refine call_cond_literal ?_ hleft hright hholds hholds'
        rw [← arity_unquotes h, arity_of_literal hleft]

/-- `cond` whose test and branches are all literals, and which may ask. -/
theorem call_unquoted_cond :
    List.Forall₂ (Value.Unquotes opened.cells)
        [.literal (.made 0 1) 99999999999999999999, .literal (.made 0 2) 88888888888888888888,
          .text "no"]
        [.wide (.made 0 3) 99999999999999999999, .wide .blank 88888888888888888888, .text "no"]
    ∧ Unquoted ⟨0, 0, some 1⟩ opened
        [.literal (.made 0 1) 99999999999999999999, .literal (.made 0 2) 88888888888888888888,
          .text "no"]
        [.wide (.made 0 3) 99999999999999999999, .wide .blank 88888888888888888888, .text "no"]
        .cond
        (call Platform.host ⟨0, 0, some 1⟩ (eval Platform.host ⟨0, 0, some 1⟩ 1) (.standard .cond)
          [.literal (.made 0 1) 99999999999999999999, .literal (.made 0 2) 88888888888888888888,
            .text "no"] opened)
        (call Platform.host ⟨0, 0, some 1⟩ (eval Platform.host ⟨0, 0, some 1⟩ 1) (.standard .cond)
          [.wide (.made 0 3) 99999999999999999999, .wide .blank 88888888888888888888, .text "no"]
          opened) := by
  have hargs : List.Forall₂ (Value.Unquotes opened.cells)
      [.literal (.made 0 1) 99999999999999999999, .literal (.made 0 2) 88888888888888888888,
        .text "no"]
      [.wide (.made 0 3) 99999999999999999999, .wide .blank 88888888888888888888, .text "no"] :=
    .cons (.literal rfl rfl) (.cons (.literal rfl rfl) (.cons (.same _) .nil))
  exact ⟨hargs, call_unquoted Platform.host ⟨0, 0, some 1⟩ 0 .cond opened hargs⟩

/-- If it may not ask, `cond` gives a wide integer and does not give one that
is quoted. -/
theorem cond_tells_literals :
    List.Forall₂ (Value.Unquotes opened.cells)
        [.int 1, .literal (.made 0 1) 99999999999999999999]
        [.int 1, .wide (.made 0 2) 99999999999999999999]
    ∧ ∃ m₁ m₂,
      call Platform.host ⟨0, 0, some 0⟩ (eval Platform.host ⟨0, 0, some 0⟩ 1) (.standard .cond)
          [.int 1, .literal (.made 0 1) 99999999999999999999] opened = .done (.error .canceled) m₁
      ∧ call Platform.host ⟨0, 0, some 0⟩ (eval Platform.host ⟨0, 0, some 0⟩ 1) (.standard .cond)
          [.int 1, .wide (.made 0 2) 99999999999999999999] opened
        = .done (.ok (.wide (.made 0 2) 99999999999999999999)) m₂ :=
  ⟨.cons (.same _) (.cons (.literal rfl rfl) .nil), _, _, rfl, rfl⟩

end Eval

end LispShell
