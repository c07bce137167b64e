/-
Integer arithmetic is exact.

An integer comes to a procedure in one of four forms: narrow, wide, as a
literal that was quoted, or as a truth value (`Value.Holds`). The procedures
take it for the same number in each of them, compute with that number, and
give the result in one form only, narrow exactly if 64 bits hold it
(`Value.Normal`, `arithmetic_exact`). On the way back a sum, a difference or
a product is written in decimal and read again; nothing is lost there, since
reading undoes writing (`toValue_int`).

The remainder starts from the division toward zero, whose remainder has the
sign of the dividend, and is moved by the divisor if that is the wrong side.
`Residue` is what there is to say about the outcome: it is the one number
that differs from the dividend by a multiple of the divisor and lies between
zero and the divisor (`modulo_floored`).

# Calls

The statements are about calls. `Answers` says what comes of calling the
procedure that the root frame binds to a name, with any host, at any site
and in any state.
-/
import LispShell.Eval
import LispShell.Proofs.Atom
import LispShell.Proofs.Decimal.RoundTrip
import LispShell.Proofs.Imports

namespace LispShell

-- ====================================================== calls of standard procedures

/-- Calling what the root frame binds to a name gives the answer, with an
identity if it is new, and leaves nothing behind but the call in the
journal. -/
def Answers (name : String) (args : List Value) (answer : Except Failure Value) : Prop :=
  ∃ p, rootMembers.lookup name = some (.proc p)
    ∧ ∀ {σ : Type} (host : Host σ) (site : Site) (inner : Eval.Inner σ) (m : Machine σ),
      Eval.call host site inner p args m
        = Eval.bind (Eval.ofExcept answer) (Eval.settle site.session)
            { m with journal := .called p args :: m.journal }

/-- A host that offers nothing. -/
def Host.barren : Host Unit where
  call _ _ := .finish (.ok .nil)
  invoke _ _ _ := .finish (.ok .nil)
  method? _ _ := none
  function? _ := none
  member _ _ _ := .ok .nil
  listing _ _ := []

/-- A machine before anything was evaluated. -/
def Machine.blank : Machine Unit :=
  ⟨[], ⟨[], []⟩, (), [], 0, 0, []⟩

namespace Answers

variable {name : String} {p : Standard} {args : List Value}

/-- A standard procedure that gives a value answers with it. -/
theorem of_ok {v : Value} (hname : rootMembers.lookup name = some (.proc (.standard p)))
    (hp : ∀ {σ : Type} (host : Host σ) (site : Site) (inner : Eval.Inner σ),
      Eval.applyStandard host site inner args p = Eval.ofResult (.ok v)) :
    Answers name args (.ok v) := by
  refine ⟨_, hname, fun host site inner m => ?_⟩
  unfold Eval.call
  simp only [bind, Eval.bind, Eval.record, Eval.modify, Eval.mapFailure, Eval.applyProc, hp,
    Eval.ofResult, Eval.ofExcept, Eval.pure]

/-- Only a complaint about types is reported as something else. -/
theorem of_error {f : Fault} (hname : rootMembers.lookup name = some (.proc (.standard p)))
    (hp : ∀ {σ : Type} (host : Host σ) (site : Site) (inner : Eval.Inner σ),
      Eval.applyStandard host site inner args p = Eval.ofResult (.error f))
    (hf : f.kind ≠ .typing) : Answers name args (.error (.fault f)) := by
  have hreported : Failure.ofCall (.fault f) = .fault f := by
    unfold Failure.ofCall
    split
    · next htyping => exact absurd (congrArg Prod.fst (Option.some.inj htyping)) hf
    · rfl
  refine ⟨_, hname, fun host site inner m => ?_⟩
  unfold Eval.call
  simp only [bind, Eval.bind, Eval.record, Eval.modify, Eval.mapFailure, Eval.applyProc, hp,
    Eval.ofResult, Eval.ofExcept, Eval.fault, Eval.fail, hreported]

/-- An answer that is not new is what a call ends with. -/
theorem call_eq {v : Value} (h : Answers name args (.ok v)) (hv : v.Settled) :
    ∃ p, rootMembers.lookup name = some (.proc p)
      ∧ ∀ {σ : Type} (host : Host σ) (site : Site) (inner : Eval.Inner σ) (m : Machine σ),
        Eval.call host site inner p args m
          = .done (.ok v) { m with journal := .called p args :: m.journal } := by
  obtain ⟨p, hname, hcall⟩ := h
  refine ⟨p, hname, fun host site inner m => ?_⟩
  rw [hcall]
  show Eval.settle site.session v _ = _
  rw [Eval.settle_of_settled hv]
  rfl

/-- A call has one answer, if that is not new: any host, site and state
bring it out. -/
theorem unique {v w : Value} (h : Answers name args (.ok v)) (hv : v.Settled)
    (h' : Answers name args (.ok w)) (hw : w.Settled) : v = w := by
  obtain ⟨p, hname, hcall⟩ := h.call_eq hv
  obtain ⟨q, hname', hcall'⟩ := h'.call_eq hw
  rw [hname] at hname'
  cases hname'
  have hrun := hcall Host.barren ⟨0, 0, none⟩ (fun _ => Eval.spent) Machine.blank
  rw [hcall'] at hrun
  cases hrun
  rfl

end Answers

-- ====================================================== integers as values

namespace Value

/-- The value counts as the integer, in whichever form. -/
inductive Holds : Value → ℤ → Prop where
  | int (n : Int64) : Holds (.int n) n.toInt
  | wide (mark : Mark) (z : ℤ) : Holds (.wide mark z) z
  | literal (mark : Mark) (z : ℤ) : Holds (.literal mark z) z
  | bool (b : Bool) : Holds (.bool b) (if b then 1 else 0)

/-- The number that a value is taken for. -/
theorem Holds.number?_eq {v : Value} {z : ℤ} (h : v.Holds z) : v.number? = some (.int z) := by
  cases h with
  | int n => rfl
  | wide mark z => rfl
  | literal mark z => rfl
  | bool b => rfl

/-- The integer that a value is taken for. -/
theorem Holds.integer?_eq {v : Value} {z : ℤ} (h : v.Holds z) : v.integer? = some z := by
  unfold integer?
  rw [h.number?_eq]

/-- The value is the integer in its normal form: narrow if 64 bits hold it,
wide if they do not. -/
inductive Normal (z : ℤ) : Value → Prop where
  | narrow {n : Int64} (h : n.toInt = z) : Normal z (.int n)
  | wide {mark : Mark} (h : ¬(-2 ^ 63 ≤ z ∧ z ≤ 2 ^ 63 - 1)) : Normal z (.wide mark z)

/-- Every integer is made in its normal form. -/
theorem normal_ofInt (z : ℤ) : Normal z (ofInt z) := by
  unfold ofInt
  split
  · next h =>
    obtain ⟨hle, hge⟩ := (Decimal.fits_iff z).1 h
    exact .narrow (Int64.toInt_ofInt_of_le hle (by omega))
  · next h => exact .wide fun hfits => h ((Decimal.fits_iff z).2 hfits)

/-- A normal form counts as its integer. -/
theorem Normal.holds {v : Value} {z : ℤ} (h : Normal z v) : v.Holds z := by
  cases h with
  | @narrow n hn => exact hn ▸ .int n
  | @wide mark => exact .wide mark z

/-- The identity of an integer says nothing about its size. -/
theorem Normal.identify {v : Value} {z : ℤ} (h : Normal z v) (mark : Mark) :
    Normal z (v.identify mark) := by
  cases h with
  | narrow hn => exact .narrow hn
  | @wide own hwide => cases own <;> exact .wide hwide

/-- There is one narrow form of an integer, and no other if 64 bits hold
it. -/
theorem Normal.eq_int {v : Value} {z : ℤ} (h : Normal z v) {n : Int64} (hn : n.toInt = z) :
    v = .int n := by
  cases h with
  | narrow hk => rw [Int64.toInt_inj.1 (hk.trans hn.symm)]
  | wide hwide =>
    have := Int64.le_toInt n
    have := Int64.toInt_lt n
    omega

/-- An integer that 64 bits do not hold is wide. -/
theorem Normal.eq_wide {v : Value} {z : ℤ} (h : Normal z v)
    (hwide : ¬(-2 ^ 63 ≤ z ∧ z ≤ 2 ^ 63 - 1)) : ∃ mark, v = .wide mark z := by
  cases h with
  | @narrow k hk =>
    have := Int64.le_toInt k
    have := Int64.toInt_lt k
    omega
  | @wide mark => exact ⟨mark, rfl⟩

end Value

/-- Calling what the root frame binds to a name computes the integer. -/
def Computes (name : String) (args : List Value) (z : ℤ) : Prop :=
  ∃ v, Value.Normal z v ∧ Answers name args (.ok v)

/-- A standard procedure that makes an integer computes it. -/
theorem Computes.of_ok {name : String} {p : Standard} {args : List Value} {z : ℤ}
    (hname : rootMembers.lookup name = some (.proc (.standard p)))
    (hp : ∀ {σ : Type} (host : Host σ) (site : Site) (inner : Eval.Inner σ),
      Eval.applyStandard host site inner args p = Eval.ofResult (.ok (.ofInt z))) :
    Computes name args z :=
  ⟨_, Value.normal_ofInt z, .of_ok hname hp⟩

-- ====================================================== the operations

/-- A whole result is the integer again after its way through text. -/
theorem Number.toValue_int (z : ℤ) : (Number.int z).toValue = .ok (.ofInt z) := by
  unfold Number.toValue
  dsimp only
  rw [Decimal.int?_renderInt]

namespace Standard

open Value (Holds)

variable {a b : Value} {m n : ℤ}

/-- Every form of an integer is an operand. -/
theorem operand_of_holds (procedure : String) (ha : Holds a m) :
    operand procedure a = .ok (.int m) := by
  unfold operand
  rw [ha.number?_eq]

/-- An operation on two integers gives the integer that it makes of them. -/
theorem arithmetic_of_holds {op : Number → Number → Number} {z : ℤ} (ha : Holds a m)
    (hb : Holds b n) (hop : op (.int m) (.int n) = .int z) (procedure : String) :
    arithmetic procedure op [a, b] = .ok (.ofInt z) := by
  unfold arithmetic
  simp only [twoArgs, operand_of_holds procedure ha, operand_of_holds procedure hb, bind,
    Except.bind]
  rw [hop, Number.toValue_int]

/-- No form of an integer is taken for a text or a sequence. -/
theorem addition_of_holds (ha : Holds a m) (hb : Holds b n) :
    addition [a, b] = .ok (.ofInt (m + n)) := by
  have harithmetic : arithmetic "add" Number.add [a, b] = .ok (.ofInt (m + n)) :=
    arithmetic_of_holds ha hb rfl "add"
  rw [← harithmetic]
  cases ha with
  | int m => rfl
  | wide mark m => rfl
  | literal mark m => rfl
  | bool c => rfl

/-- The shortcut for small bases and the sign taken by parity agree with the
power. -/
theorem intPower_eq (base : ℤ) (exponent : ℕ) : intPower base exponent = base ^ exponent := by
  have hmagnitude : (if base.natAbs ≤ 1 then (if exponent == 0 then 1 else base.natAbs)
      else base.natAbs ^ exponent) = base.natAbs ^ exponent := by
    split
    · next hsmall =>
      rcases Nat.eq_zero_or_pos exponent with rfl | hpos
      · rfl
      · rw [if_neg (by simpa using hpos.ne')]
        have hcases : base.natAbs = 0 ∨ base.natAbs = 1 := by omega
        rcases hcases with h | h
        · rw [h, zero_pow hpos.ne']
        · rw [h, one_pow]
    · rfl
  unfold intPower
  dsimp only
  rw [hmagnitude]
  push_cast
  rcases lt_or_ge base 0 with hneg | hnonneg
  · rw [abs_of_neg hneg]
    rcases Nat.even_or_odd exponent with heven | hodd
    · rw [if_neg (by simp [Nat.even_iff.1 heven]), heven.neg_pow]
    · rw [if_pos (by simp [hneg, Nat.odd_iff.1 hodd]), hodd.neg_pow, neg_neg]
  · rw [abs_of_nonneg hnonneg, if_neg (by simp [not_lt.2 hnonneg])]

/-- A power with an exponent that is not negative. -/
theorem power_of_holds (ha : Holds a m) (hb : Holds b n) (hn : 0 ≤ n) :
    power [a, b] = .ok (.ofInt (m ^ n.toNat)) := by
  unfold power
  simp only [twoArgs, bind, Except.bind, ha.integer?_eq, hb.integer?_eq]
  rw [if_pos hn, intPower_eq]

/-- The product that is computed is the factorial. -/
theorem product_eq_factorial (n : ℕ) : product n = n.factorial := by
  induction n with
  | zero => rfl
  | succ n ih => rw [product, ih, Nat.factorial_succ]

/-- The factorial of a narrow integer that is not negative. -/
theorem factorialOf_int {k : Int64} (hk : 0 ≤ k.toInt) :
    factorialOf [.int k] = .ok (.ofInt k.toInt.toNat.factorial) := by
  have hnot : ¬k < 0 := by
    rw [Int64.lt_iff_toInt_lt]
    exact not_lt.2 hk
  unfold factorialOf
  simp only [oneArg, bind, Except.bind]
  rw [if_neg hnot, product_eq_factorial]
  rfl

/-- The greatest common divisor of two integers. -/
theorem commonDivisor_of_holds (ha : Holds a m) (hb : Holds b n) :
    commonDivisor [a, b] = .ok (.ofInt (Int.gcd m n)) := by
  unfold commonDivisor
  simp only [twoArgs, bind, Except.bind, ha.integer?_eq, hb.integer?_eq]
  rfl

-- ====================================================== the remainder

/-- The number differs from `m` by a multiple of `n`, and lies between zero
and `n`, which it may not reach. -/
structure Residue (m n r : ℤ) : Prop where
  divides : n ∣ m - r
  above : 0 < n → 0 ≤ r ∧ r < n
  below : n < 0 → n < r ∧ r ≤ 0

/-- Two residues differ by a multiple of the divisor that is smaller than
it. -/
theorem Residue.unique {r s : ℤ} (hn : n ≠ 0) (hr : Residue m n r) (hs : Residue m n s) :
    r = s := by
  have hdivides : |n| ∣ s - r := by
    have hdiff := dvd_sub hr.divides hs.divides
    rw [abs_dvd]
    rwa [sub_sub_sub_cancel_left] at hdiff
  have hclose : |s - r| < |n| := by
    rcases lt_or_gt_of_ne hn with hneg | hpos
    · have := hr.below hneg
      have := hs.below hneg
      rw [abs_of_neg hneg, abs_lt]
      omega
    · have := hr.above hpos
      have := hs.above hpos
      rw [abs_of_pos hpos, abs_lt]
      omega
  have hzero := Int.eq_zero_of_abs_lt_dvd hdivides hclose
  omega

/-- A multiple of the divisor more leaves the same residues. -/
theorem Residue.add_mul {r : ℤ} (h : Residue m n r) (k : ℤ) : Residue (m + k * n) n r where
  divides := by
    have hsum := dvd_add h.divides (Dvd.intro_left k rfl)
    rwa [show m + k * n - r = m - r + k * n by ring]
  above := h.above
  below := h.below

/-- Moving the remainder toward zero once, if at all, brings it to the
divisor's side: it is smaller than the divisor either way. -/
theorem residue_signedRemainder (hn : n ≠ 0) : Residue m n (signedRemainder m n) := by
  have hdivides : n ∣ m - m.tmod n := Int.dvd_self_sub_tmod
  have hsmall : |m.tmod n| < |n| := by
    rw [Int.abs_eq_natAbs, Int.abs_eq_natAbs, Int.natAbs_tmod]
    exact_mod_cast Nat.mod_lt _ (Int.natAbs_pos.2 hn)
  unfold signedRemainder
  dsimp only
  generalize m.tmod n = r at hdivides hsmall
  have hmoved : n ∣ m - (r + n) := by
    have hdiff := dvd_sub hdivides (dvd_refl n)
    rwa [sub_sub] at hdiff
  rw [abs_lt] at hsmall
  -- the remainder is moved by `n` where its sign is the wrong one
  rcases lt_or_gt_of_ne hn with hneg | hpos
  · rw [abs_of_neg hneg] at hsmall
    rw [Int.sign_eq_neg_one_of_neg hneg]
    rcases lt_trichotomy r 0 with hr | rfl | hr
    · rw [Int.sign_eq_neg_one_of_neg hr, if_neg (by simp)]
      exact ⟨hdivides, by omega, by omega⟩
    · rw [if_neg (by simp)]
      exact ⟨hdivides, by omega, by omega⟩
    · rw [Int.sign_eq_one_of_pos hr, if_pos (by simpa using hr.ne')]
      exact ⟨hmoved, by omega, by omega⟩
  · rw [abs_of_pos hpos] at hsmall
    rw [Int.sign_eq_one_of_pos hpos]
    rcases lt_trichotomy r 0 with hr | rfl | hr
    · rw [Int.sign_eq_neg_one_of_neg hr, if_pos (by simpa using hr.ne)]
      exact ⟨hmoved, by omega, by omega⟩
    · rw [if_neg (by simp)]
      exact ⟨hdivides, by omega, by omega⟩
    · rw [Int.sign_eq_one_of_pos hr, if_neg (by simp)]
      exact ⟨hdivides, by omega, by omega⟩

/-- The remainder, or the complaint about zero. -/
theorem modulo_of_holds (ha : Holds a m) (hb : Holds b n) :
    modulo [a, b]
      = if n = 0 then .error .integerModulo else .ok (.ofInt (signedRemainder m n)) := by
  unfold modulo
  simp only [twoArgs, bind, Except.bind, ha.integer?_eq, hb.integer?_eq, beq_iff_eq]

end Standard

-- ====================================================== what calls compute

section

open Standard

variable {a b : Value} {m n : ℤ}

theorem answers_addition (ha : a.Holds m) (hb : b.Holds n) :
    Answers "+" [a, b] (.ok (.ofInt (m + n))) :=
  .of_ok rfl fun _ _ _ => congrArg Eval.ofResult (addition_of_holds ha hb)

theorem computes_product (ha : a.Holds m) (hb : b.Holds n) : Computes "*" [a, b] (m * n) :=
  .of_ok rfl fun _ _ _ => congrArg Eval.ofResult (arithmetic_of_holds ha hb rfl "mul")

/-- Calling `%` on integers, the second of which is not zero. -/
theorem answers_remainder (ha : a.Holds m) (hb : b.Holds n) (hn : n ≠ 0) :
    Answers "%" [a, b] (.ok (.ofInt (signedRemainder m n))) := by
  have hmodulo := modulo_of_holds ha hb
  rw [if_neg hn] at hmodulo
  exact .of_ok rfl fun _ _ _ => congrArg Eval.ofResult hmodulo

/-- Calling `%` on integers, the second of which is zero. -/
theorem remainder_by_zero (ha : a.Holds m) (hb : b.Holds 0) :
    Answers "%" [a, b] (.error (.fault .integerModulo)) := by
  have hmodulo := modulo_of_holds ha hb
  rw [if_pos rfl] at hmodulo
  exact .of_error rfl (fun _ _ _ => congrArg Eval.ofResult hmodulo) (by decide)

/-- Sums, differences, products, powers, common divisors and factorials of
integers are the true ones, whatever form the integers come in and whatever
size the result has. -/
theorem arithmetic_exact (ha : a.Holds m) (hb : b.Holds n) :
    Computes "+" [a, b] (m + n) ∧ Computes "-" [a, b] (m - n) ∧ Computes "*" [a, b] (m * n)
      ∧ (0 ≤ n → Computes "^" [a, b] (m ^ n.toNat))
      ∧ (∃ g : ℤ, 0 ≤ g ∧ (∀ d, d ∣ g ↔ d ∣ m ∧ d ∣ n) ∧ Computes "gcd" [a, b] g)
      ∧ ∀ k : Int64, 0 ≤ k.toInt → Computes "factorial" [.int k] k.toInt.toNat.factorial := by
  refine ⟨⟨_, Value.normal_ofInt _, answers_addition ha hb⟩, ?_, computes_product ha hb,
    fun hn => ?_, ?_, fun k hk => ?_⟩
  · exact .of_ok rfl fun _ _ _ => congrArg Eval.ofResult (arithmetic_of_holds ha hb rfl "sub")
  · exact .of_ok rfl fun _ _ _ => congrArg Eval.ofResult (power_of_holds ha hb hn)
  · refine ⟨Int.gcd m n, Int.natCast_nonneg _, fun d => Int.dvd_coe_gcd_iff, ?_⟩
    exact .of_ok rfl fun _ _ _ => congrArg Eval.ofResult (commonDivisor_of_holds ha hb)
  · exact .of_ok rfl fun _ _ _ => congrArg Eval.ofResult (factorialOf_int hk)

/-- One less than the first integer past 64 bits is narrow again, and the
factorial that goes past them is wide. -/
theorem arithmetic_exact_boundary :
    (Value.literal (.made 0 0) (2 ^ 63)).Holds (2 ^ 63) ∧ (Value.bool true).Holds 1
      ∧ Answers "-" [.literal (.made 0 0) (2 ^ 63), .bool true] (.ok (.int Int64.maxValue))
      ∧ Computes "^" [.literal (.made 0 0) (2 ^ 63), .bool true] (2 ^ 63)
      ∧ ∃ mark, Answers "factorial" [.int 21] (.ok (.wide mark 51090942171709440000)) := by
  have ha : (Value.literal (.made 0 0) (2 ^ 63)).Holds (2 ^ 63) := .literal _ _
  have hb : (Value.bool true).Holds 1 := .bool true
  obtain ⟨-, hdifference, -, hpower, -, hfactorial⟩ := arithmetic_exact ha hb
  refine ⟨ha, hb, ?_, hpower (by decide), ?_⟩
  · obtain ⟨v, hv, hanswer⟩ := hdifference
    rwa [hv.eq_int (n := Int64.maxValue) (by decide)] at hanswer
  · obtain ⟨v, hv, hanswer⟩ := hfactorial 21 (by decide)
    obtain ⟨mark, rfl⟩ := hv.eq_wide (by decide)
    exact ⟨mark, hanswer⟩

/-- The remainder of integers is the residue on the divisor's side, so a
multiple of the divisor more makes no difference, whatever identity the
multiple and the sum were given. By zero there is none. -/
theorem modulo_floored (ha : a.Holds m) (hb : b.Holds n) :
    (n = 0 → ∃ f : Fault, f.kind = .zeroDivision ∧ Answers "%" [a, b] (.error (.fault f)))
      ∧ (n ≠ 0 → ∃ r, Residue m n r ∧ (∀ s, Residue m n s → s = r) ∧ Computes "%" [a, b] r)
      ∧ ∀ (c : Value) (k : ℤ), c.Holds k → ∃ product sum answer,
        Answers "*" [c, b] (.ok product)
          ∧ (∀ mark, Answers "+" [a, product.identify mark] (.ok sum))
          ∧ (∀ mark, Answers "%" [sum.identify mark, b] answer) ∧ Answers "%" [a, b] answer := by
  refine ⟨?_, fun hn => ?_, fun c k hc => ?_⟩
  · rintro rfl
    exact ⟨.integerModulo, rfl, remainder_by_zero ha hb⟩
  · have hresidue : Residue m n (signedRemainder m n) := residue_signedRemainder hn
    exact ⟨_, hresidue, fun s hs => hs.unique hn hresidue,
      ⟨_, Value.normal_ofInt _, answers_remainder ha hb hn⟩⟩
  · obtain ⟨product, hproduct, hmul⟩ := computes_product hc hb
    have hadd : ∀ mark, Answers "+" [a, product.identify mark] (.ok (.ofInt (m + k * n))) :=
      fun mark => answers_addition ha (hproduct.identify mark).holds
    have hsum : ∀ mark, ((Value.ofInt (m + k * n)).identify mark).Holds (m + k * n) :=
      fun mark => ((Value.normal_ofInt _).identify mark).holds
    refine ⟨product, .ofInt (m + k * n), ?_⟩
    by_cases hn : n = 0
    · subst hn
      exact ⟨_, hmul, hadd, fun mark => remainder_by_zero (hsum mark) hb, remainder_by_zero ha hb⟩
    · have hsame : signedRemainder (m + k * n) n = signedRemainder m n :=
        (residue_signedRemainder hn).unique hn ((residue_signedRemainder hn).add_mul k)
      refine ⟨_, hmul, hadd, fun mark => ?_, answers_remainder ha hb hn⟩
      rw [← hsame]
      exact answers_remainder (hsum mark) hb hn

/-- A wide dividend below zero has a remainder above it, and none by
`false`. -/
theorem modulo_floored_wide :
    Computes "%" [.wide (.made 0 0) (-2 ^ 64 - 1), .int 3] 1
      ∧ (∃ f : Fault, f.kind = .zeroDivision
        ∧ Answers "%" [.wide (.made 0 0) (-2 ^ 64 - 1), .bool false] (.error (.fault f)))
      ∧ ∃ product sum answer, Answers "*" [.bool true, .int 3] (.ok product)
        ∧ (∀ mark,
          Answers "+" [.wide (.made 0 0) (-2 ^ 64 - 1), product.identify mark] (.ok sum))
        ∧ (∀ mark, Answers "%" [sum.identify mark, .int 3] answer)
        ∧ Answers "%" [.wide (.made 0 0) (-2 ^ 64 - 1), .int 3] answer := by
  have ha : (Value.wide (.made 0 0) (-2 ^ 64 - 1)).Holds (-2 ^ 64 - 1) := .wide _ _
  have hb : (Value.int 3).Holds 3 := .int 3
  obtain ⟨-, hremainder, hmultiple⟩ := modulo_floored ha hb
  refine ⟨?_, (modulo_floored ha (.bool false)).1 rfl, hmultiple _ _ (.bool true)⟩
  obtain ⟨r, -, hunique, hcomputes⟩ := hremainder (by decide)
  rwa [← hunique 1 ⟨by decide, by decide, by decide⟩] at hcomputes

end

end LispShell
