/-
Numbers in order.

Two integers are compared exactly, and any other two numbers as floats. So
a number has a height among the floats, which integers reach without
changing their order, though many of them share one: from `2^53` on they
stand closer than the floats do, and past the largest float all of them are
as high as the infinity. Whatever is lower comes first; of two numbers of
the same height the smaller comes first if both are integers, and else they
are equal (`compare_eq_lt_iff`).

From this the laws follow by arithmetic on heights: the three outcomes
exclude each other, turning the arguments round turns the outcome round
(`compare_swap`), and what comes before something that comes before a third
comes before that one, in every mixture of integers and floats
(`compare_trans`). Equality is not transitive: a float is equal to all the
integers of its height. `comparison_consistent` says all this of the five
procedures that the root frame binds.
-/
import LispShell.Proofs.Arithmetic
import LispShell.Proofs.Binary64.Order

namespace LispShell

namespace Number

-- ====================================================== heights

/-- Whether it is no number after all. -/
def isNaN : Number → Bool
  | .int _ => false
  | .float x => x.isNaN

/-- Where a number stands among the floats. -/
def height (a : Number) : ℤ :=
  Binary64.rank a.toFloat

/-- An integer is a number as a float as well. -/
theorem isNaN_toFloat (a : Number) : a.toFloat.isNaN = a.isNaN := by
  cases a with
  | int n => exact Binary64.isNaN_ofInt n
  | float x => rfl

/-- Integers are compared as integers. -/
theorem compare_int (m n : ℤ) : (Number.int m).compare (.int n) = Ord.compare m n := by
  unfold Number.compare
  dsimp only
  rcases lt_trichotomy m n with h | rfl | h
  · rw [if_pos h, compare_lt_iff_lt.2 h]
  · rw [if_neg (lt_irrefl m), if_pos (beq_self_eq_true m), compare_eq_iff_eq.2 rfl]
  · rw [if_neg h.asymm, if_neg (by simpa using h.ne'), compare_gt_iff_gt.2 h]

/-- Floats that are numbers are compared by height. -/
theorem compare_toFloat {a b : Number} (ha : a.isNaN = false) (hb : b.isNaN = false) :
    (if a.toFloat < b.toFloat then Ordering.lt
      else if a.toFloat == b.toFloat then .eq else .gt) = Ord.compare a.height b.height := by
  have hlt := Binary64.lt_iff_rank ((isNaN_toFloat a).trans ha) ((isNaN_toFloat b).trans hb)
  have heq := Binary64.beq_iff_rank ((isNaN_toFloat a).trans ha) ((isNaN_toFloat b).trans hb)
  rcases lt_trichotomy a.height b.height with h | h | h
  · rw [if_pos (hlt.2 h), compare_lt_iff_lt.2 h]
  · rw [if_neg fun h' => (hlt.1 h').ne h, if_pos (heq.2 h), compare_eq_iff_eq.2 h]
  · rw [if_neg fun h' => (hlt.1 h').asymm h, if_neg fun h' => h.ne' (heq.1 h'),
      compare_gt_iff_gt.2 h]

/-- The two ways of comparing. -/
theorem compare_cases {a b : Number} (ha : a.isNaN = false) (hb : b.isNaN = false) :
    (∃ m n, a = .int m ∧ b = .int n ∧ a.compare b = Ord.compare m n)
      ∨ (∀ m n, a = .int m → b ≠ .int n) ∧ a.compare b = Ord.compare a.height b.height := by
  cases a with
  | int m =>
    cases b with
    | int n => exact .inl ⟨m, n, rfl, rfl, compare_int m n⟩
    | float y =>
      refine .inr ⟨?_, compare_toFloat ha hb⟩
      rintro _ _ - ⟨⟩
  | float x =>
    refine .inr ⟨?_, compare_toFloat ha hb⟩
    rintro _ _ ⟨⟩

/-- Turning the numbers round turns the outcome round. -/
theorem compare_swap {a b : Number} (ha : a.isNaN = false) (hb : b.isNaN = false) :
    b.compare a = (a.compare b).swap := by
  rcases compare_cases ha hb with ⟨m, n, rfl, rfl, hab⟩ | ⟨hmixed, hab⟩
  · rw [hab, compare_int, Int.compare_swap]
  · rcases compare_cases hb ha with ⟨n, m, rfl, rfl, -⟩ | ⟨-, hba⟩
    · exact absurd rfl (hmixed m n rfl)
    · rw [hab, hba, Int.compare_swap]

/-- What is lower comes first, and of integers of one height the smaller. -/
theorem compare_eq_lt_iff {a b : Number} (ha : a.isNaN = false) (hb : b.isNaN = false) :
    a.compare b = .lt ↔ a.height < b.height
      ∨ a.height = b.height ∧ ∃ m n, a = .int m ∧ b = .int n ∧ m < n := by
  rcases compare_cases ha hb with ⟨m, n, rfl, rfl, hcompare⟩ | ⟨hmixed, hcompare⟩
  · rw [hcompare, compare_lt_iff_lt]
    constructor
    · intro hmn
      rcases (Binary64.rank_ofInt_mono hmn.le).lt_or_eq with hlower | hsame
      · exact .inl hlower
      · exact .inr ⟨hsame, m, n, rfl, rfl, hmn⟩
    · rintro (hlower | ⟨-, _, _, ⟨⟩, ⟨⟩, hmn⟩)
      · by_contra hle
        exact hlower.not_ge (Binary64.rank_ofInt_mono (not_lt.1 hle))
      · exact hmn
  · rw [hcompare, compare_lt_iff_lt]
    constructor
    · exact .inl
    · rintro (hlower | ⟨-, m, n, rfl, rfl, -⟩)
      · exact hlower
      · exact absurd rfl (hmixed m n rfl)

/-- Once a step goes up, the whole way does; if none does, all three are
integers. -/
theorem compare_trans {a b c : Number} (ha : a.isNaN = false) (hb : b.isNaN = false)
    (hc : c.isNaN = false) (hab : a.compare b = .lt) (hbc : b.compare c = .lt) :
    a.compare c = .lt := by
  rw [compare_eq_lt_iff ha hb] at hab
  rw [compare_eq_lt_iff hb hc] at hbc
  rw [compare_eq_lt_iff ha hc]
  rcases hab with hab | ⟨hab, m, n, rfl, rfl, hmn⟩
  · rcases hbc with hbc | ⟨hbc, -⟩
    · exact .inl (hab.trans hbc)
    · exact .inl (hab.trans_eq hbc)
  · rcases hbc with hbc | ⟨hbc, _, l, ⟨⟩, rfl, hnl⟩
    · exact .inl (hab.trans_lt hbc)
    · exact .inr ⟨hab.trans hbc, m, l, rfl, rfl, hmn.trans hnl⟩

end Number

-- ====================================================== the procedures

namespace Value

/-- The value is a number, in whichever form. -/
inductive Numeric : Value → Prop where
  | int (n : Int64) : Numeric (.int n)
  | wide (mark : Mark) (z : ℤ) : Numeric (.wide mark z)
  | literal (mark : Mark) (z : ℤ) : Numeric (.literal mark z)
  | bool (b : Bool) : Numeric (.bool b)
  | float (x : Float) : Numeric (.float x)

/-- The number that a value is taken for. -/
theorem Numeric.number?_eq {v : Value} (h : v.Numeric) :
    ∃ x, v.number? = some x ∧ x.isNaN = v.isNaN := by
  cases h with
  | int n => exact ⟨_, rfl, rfl⟩
  | wide mark z => exact ⟨_, rfl, rfl⟩
  | literal mark z => exact ⟨_, rfl, rfl⟩
  | bool b => exact ⟨_, rfl, rfl⟩
  | float x => exact ⟨_, rfl, rfl⟩

/-- The value is a number that has its place in the order. -/
structure Ordered (v : Value) : Prop where
  numeric : v.Numeric
  number : v.isNaN = false

end Value

/-- Calling what the root frame binds to a name finds two values to be, or
not to be, in a relation. -/
def Finds (name : String) (a b : Value) (found : Bool) : Prop :=
  Answers name [a, b] (.ok (.bool found))

namespace Standard

variable {a b : Value} {x y : Number}

/-- What the four procedures of the order say. -/
theorem comparison_of_numeric (o : Order) (hx : a.number? = some x)
    (hy : b.number? = some y) :
    comparison o [a, b] = .ok (.bool (!(a.isNaN || b.isNaN) && o.accepts (x.compare y))) := by
  have hoperands : operand o.name a = .ok x ∧ operand o.name b = .ok y := by
    unfold operand
    rw [hx, hy]
    exact ⟨rfl, rfl⟩
  unfold comparison
  simp only [twoArgs, bind, Except.bind]
  split
  · cases hx
  · rw [hoperands.1, hoperands.2]
    rfl

theorem equality_of_numeric (hx : a.number? = some x) (hy : b.number? = some y) :
    equality [a, b] = .ok (.bool (!(a.isNaN || b.isNaN) && x.compare y == .eq)) := by
  unfold equality equals
  simp only [twoArgs, bind, Except.bind, hx, hy]
  cases a.isNaN || b.isNaN <;> rfl

end Standard

/-- The five tests on numbers: the name that the root frame binds to each,
and the outcomes of a comparison that it accepts. -/
inductive OrderTest : String → (Ordering → Bool) → Prop where
  | same : OrderTest "=" (· == .eq)
  | less : OrderTest "<" (· == .lt)
  | more : OrderTest ">" (· == .gt)
  | atMost : OrderTest "<=" (· != .gt)
  | atLeast : OrderTest ">=" (· != .lt)

/-- What any of the five says. -/
theorem finds_test {name : String} {test : Ordering → Bool} (h : OrderTest name test)
    {a b : Value} {x y : Number} (hx : a.number? = some x) (hy : b.number? = some y) :
    Finds name a b (!(a.isNaN || b.isNaN) && test (x.compare y)) := by
  have horder : ∀ o : Order, rootMembers.lookup name = some (.proc (.standard (.order o))) →
      Finds name a b (!(a.isNaN || b.isNaN) && o.accepts (x.compare y)) := fun o hname =>
    .of_ok hname fun _ _ _ => congrArg Eval.ofResult (Standard.comparison_of_numeric o hx hy)
  cases h with
  | same =>
    exact .of_ok rfl fun _ _ _ => congrArg Eval.ofResult (Standard.equality_of_numeric hx hy)
  | less => exact horder .lt rfl
  | more => exact horder .gt rfl
  | atMost => exact horder .le rfl
  | atLeast => exact horder .ge rfl

namespace Value.Ordered

variable {a b c : Value}

/-- Between numbers in order a test says what it accepts of their
comparison. -/
theorem finds (ha : a.Ordered) (hb : b.Ordered) {x y : Number} (hx : a.number? = some x)
    (hy : b.number? = some y) {name : String} {test : Ordering → Bool} (h : OrderTest name test)
    {found : Bool} (hfound : test (x.compare y) = found) : Finds name a b found := by
  have hfinds := finds_test h hx hy
  rwa [ha.number, hb.number, hfound] at hfinds

/-- The number that a value in order is. -/
theorem number?_eq (ha : a.Ordered) : ∃ x : Number, a.number? = some x ∧ x.isNaN = false := by
  obtain ⟨x, hx, hnan⟩ := ha.numeric.number?_eq
  exact ⟨x, hx, hnan.trans ha.number⟩

theorem compare_of_less (ha : a.Ordered) (hb : b.Ordered) {x y : Number}
    (hx : a.number? = some x) (hy : b.number? = some y) (h : Finds "<" a b true) :
    x.compare y = .lt := by
  have hfinds : Finds "<" a b (x.compare y == .lt) := ha.finds hb hx hy .less rfl
  simpa using hfinds.unique (fun _ => rfl) h fun _ => rfl

/-- `<` is transitive. -/
theorem less_trans (ha : a.Ordered) (hb : b.Ordered) (hc : c.Ordered) (hab : Finds "<" a b true)
    (hbc : Finds "<" b c true) : Finds "<" a c true := by
  obtain ⟨x, hx, hxn⟩ := ha.number?_eq
  obtain ⟨y, hy, hyn⟩ := hb.number?_eq
  obtain ⟨z, hz, hzn⟩ := hc.number?_eq
  have htrans := Number.compare_trans hxn hyn hzn (ha.compare_of_less hb hx hy hab)
    (hb.compare_of_less hc hy hz hbc)
  exact ha.finds hc hx hz .less (beq_iff_eq.2 htrans)

/-- The five tests are five views of one comparison. -/
theorem tests_agree (ha : a.Ordered) (hb : b.Ordered) :
    ∃ less same more : Bool, Finds "<" a b less ∧ Finds "=" a b same ∧ Finds ">" a b more
      ∧ [less, same, more].count true = 1
      ∧ Finds "<=" a b (less || same) ∧ Finds ">=" a b (more || same) ∧ Finds "<" b a more := by
  obtain ⟨x, hx, hxn⟩ := ha.number?_eq
  obtain ⟨y, hy, hyn⟩ := hb.number?_eq
  have hviews : ∀ o : Ordering, [o == .lt, o == .eq, o == .gt].count true = 1
      ∧ (o != .gt) = (o == .lt || o == .eq) ∧ (o != .lt) = (o == .gt || o == .eq)
      ∧ (o.swap == .lt) = (o == .gt) := by
    intro o
    cases o <;> decide
  obtain ⟨hone, hatMost, hatLeast, hturned⟩ := hviews (x.compare y)
  rw [← Number.compare_swap hxn hyn] at hturned
  exact ⟨_, _, _, ha.finds hb hx hy .less rfl, ha.finds hb hx hy .same rfl,
    ha.finds hb hx hy .more rfl, hone, ha.finds hb hx hy .atMost hatMost,
    ha.finds hb hx hy .atLeast hatLeast, hb.finds ha hy hx .less hturned⟩

end Value.Ordered

/-- What is no number is in no relation. -/
theorem finds_nothing {a b : Value} (ha : a.Numeric) (hb : b.Numeric)
    (hnan : a.isNaN = true ∨ b.isNaN = true) {name : String} {test : Ordering → Bool}
    (h : OrderTest name test) : Finds name a b false := by
  obtain ⟨x, hx, -⟩ := ha.number?_eq
  obtain ⟨y, hy, -⟩ := hb.number?_eq
  have hfinds := finds_test h hx hy
  rwa [show (a.isNaN || b.isNaN) = true by simpa using hnan] at hfinds

/-- The five tests agree on one order of the numbers, whatever mixture of
integers and floats they come in, and find nothing where something is no
number. Equality alone is not transitive. -/
theorem comparison_consistent :
    (∀ a b : Value, a.Ordered → b.Ordered → ∃ less same more : Bool,
        Finds "<" a b less ∧ Finds "=" a b same ∧ Finds ">" a b more
          ∧ [less, same, more].count true = 1
          ∧ Finds "<=" a b (less || same) ∧ Finds ">=" a b (more || same)
          ∧ Finds "<" b a more)
      ∧ (∀ a b c : Value, a.Ordered → b.Ordered → c.Ordered →
        Finds "<" a b true → Finds "<" b c true → Finds "<" a c true)
      ∧ (Finds "=" (.int 9007199254740993) (.float 9007199254740992) true
        ∧ Finds "=" (.float 9007199254740992) (.int 9007199254740992) true
        ∧ Finds "=" (.int 9007199254740993) (.int 9007199254740992) false)
      ∧ ∀ a b : Value, a.Numeric → b.Numeric → a.isNaN = true ∨ b.isNaN = true →
        ∀ name ∈ ["=", "<", ">", "<=", ">="], Finds name a b false := by
  have hint : ∀ n, (Value.int n).Ordered := fun n => ⟨.int n, rfl⟩
  have hfloat : (Value.float 9007199254740992).Ordered := ⟨.float _, by decide⟩
  refine ⟨fun _ _ ha hb => ha.tests_agree hb, fun _ _ _ ha hb hc => ha.less_trans hb hc,
    ⟨?_, ?_, ?_⟩, fun a b ha hb hnan name hname => ?_⟩
  · exact (hint _).finds hfloat rfl rfl .same (by decide)
  · exact hfloat.finds (hint _) rfl rfl .same (by decide)
  · exact (hint _).finds (hint _) rfl rfl .same (by decide)
  · simp only [List.mem_cons, List.not_mem_nil, or_false] at hname
    rcases hname with rfl | rfl | rfl | rfl | rfl
    · exact finds_nothing ha hb hnan .same
    · exact finds_nothing ha hb hnan .less
    · exact finds_nothing ha hb hnan .more
    · exact finds_nothing ha hb hnan .atMost
    · exact finds_nothing ha hb hnan .atLeast

/-- A truth value, a float and an integer past 64 bits in a row; an integer
past the largest float beside the infinity; and no number at all. -/
theorem comparison_consistent_mixed :
    Finds "<" (.bool true) (.float 1.5) true ∧ Finds "<" (.float 1.5) (.wide .blank (2 ^ 64)) true
      ∧ Finds "<" (.bool true) (.wide .blank (2 ^ 64)) true
      ∧ (∃ less same more : Bool, [less, same, more].count true = 1
        ∧ Finds "<" (.wide .blank (10 ^ 400)) (.float Binary64.infinity) less
        ∧ Finds "=" (.wide .blank (10 ^ 400)) (.float Binary64.infinity) same
        ∧ Finds ">" (.wide .blank (10 ^ 400)) (.float Binary64.infinity) more)
      ∧ Finds "<=" (.float Binary64.nan) (.float Binary64.nan) false := by
  obtain ⟨htests, htrans, -, hnothing⟩ := comparison_consistent
  have htrue : (Value.bool true).Ordered := ⟨.bool _, rfl⟩
  have hfloat : (Value.float 1.5).Ordered := ⟨.float _, by decide⟩
  have hwide : ∀ z, (Value.wide .blank z).Ordered := fun z => ⟨.wide .blank z, rfl⟩
  have hinfinity : (Value.float Binary64.infinity).Ordered := ⟨.float _, by decide⟩
  have hfirst : Finds "<" (.bool true) (.float 1.5) true :=
    htrue.finds hfloat rfl rfl .less (by decide)
  have hsecond : Finds "<" (.float 1.5) (.wide .blank (2 ^ 64)) true :=
    hfloat.finds (hwide _) rfl rfl .less (by decide)
  refine ⟨hfirst, hsecond, htrans _ _ _ htrue hfloat (hwide _) hfirst hsecond, ?_, ?_⟩
  · obtain ⟨less, same, more, hless, hsame, hmore, hone, -⟩ :=
      htests _ _ (hwide (10 ^ 400)) hinfinity
    exact ⟨less, same, more, hone, hless, hsame, hmore⟩
  · exact hnothing _ _ (.float _) (.float _) (.inl (by decide)) "<=" (by simp)

end LispShell
