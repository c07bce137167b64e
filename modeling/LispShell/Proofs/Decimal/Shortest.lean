/-
The shortest decimal of a float reads back as that float.

The search tries the two neighbours of the float on one decimal grid
after the other and takes a point only if it lies in the interval of the
reals that round to the float. So what it finds is right
(`Span.search_holds`); what needs an argument is that it finds something.

# Seventeen digits

The grid of seventeen digits has steps of `10^(top - 16)`, where
`10^top ≤ m · 2^q`, and `m < 2^53 < 10^16`. So a step of the grid is
smaller than a step `2^q` of the floats, and one of the two neighbours
lies within half a step of the float. Below a power of two the interval
is only a quarter step wide, but there `m = 2^52` and a step of the grid
is smaller than half a step of the floats, so that the neighbour above is
near enough (`Span.nearest?_seventeen`).

That `10^top` is not above the float is the one fact that is needed about
the estimate of the decimal exponent (`Span.le_decimalExponent`): the
guess is `0.30103` times the binary exponent, which over the exponents
that floats have is never more than one too high.
-/
import LispShell.Decimal.Shortest
import LispShell.Proofs.Binary64

namespace LispShell.Decimal

open Binary64

-- ============================================== the search

/-- Membership in a span, in rationals. -/
theorem Span.holds_iff {s : Span} (hd : 0 < s.denominator) (d : ℕ) :
    s.holds d = true ↔
      (s.low : ℚ) / s.denominator ≤ d ∧ (d : ℚ) ≤ s.high / s.denominator
      ∧ (s.closed = false →
        (s.low : ℚ) / s.denominator < d ∧ (d : ℚ) < s.high / s.denominator) := by
  have hd' : (0 : ℚ) < s.denominator := by exact_mod_cast hd
  rw [div_le_iff₀ hd', le_div_iff₀ hd', div_lt_iff₀ hd', lt_div_iff₀ hd']
  unfold Span.holds
  cases hc : s.closed with
  | true =>
    simp only [if_true, Bool.and_eq_true, decide_eq_true_eq, Bool.true_eq_false,
      false_implies, and_true]
    exact_mod_cast Iff.rfl
  | false =>
    simp only [Bool.false_eq_true, if_false, Bool.and_eq_true, decide_eq_true_eq, true_implies]
    refine ⟨fun h => ?_, fun h => ?_⟩
    · have h1 : (s.low : ℚ) < d * s.denominator := by exact_mod_cast h.1
      have h2 : (d * s.denominator : ℚ) < s.high := by exact_mod_cast h.2
      exact ⟨h1.le, h2.le, h1, h2⟩
    · obtain ⟨-, -, h1, h2⟩ := h
      exact ⟨by exact_mod_cast h1, by exact_mod_cast h2⟩

/-- The number that is found lies in the span. -/
theorem Span.nearest?_holds {s : Span} {d : ℕ} (h : s.nearest? = some d) : s.holds d = true := by
  unfold Span.nearest? at h
  dsimp only at h
  split at h
  · next h1 h2 =>
    split at h
    · exact Option.some.inj h ▸ h1
    · exact Option.some.inj h ▸ h2
  · next h1 h2 => exact Option.some.inj h ▸ h1
  · next h1 h2 => exact Option.some.inj h ▸ h2
  · cases h

/-- One is found if either neighbour of the value lies in the span. -/
theorem Span.nearest?_ne_none {s : Span}
    (h : s.holds (s.value / s.denominator) = true
      ∨ s.holds (s.value / s.denominator + 1) = true) : s.nearest? ≠ none := by
  intro hnone
  unfold Span.nearest? at hnone
  dsimp only at hnone
  split at hnone
  · split at hnone <;> cases hnone
  · cases hnone
  · cases hnone
  · next h1 h2 =>
    rw [h1, h2] at h
    simp at h

/-- What the search finds lies in the span. -/
theorem Span.search_holds {s : Span} {top : ℤ} {r : Scaled} :
    ∀ {tries count : ℕ}, s.search top count tries = some r →
      (s.scale r.exponent).holds r.digits = true := by
  intro tries
  induction tries with
  | zero => intro count h; cases h
  | succ tries ih =>
    intro count h
    unfold Span.search at h
    dsimp only at h
    split at h
    · next d hd =>
      cases h
      exact Span.nearest?_holds hd
    · exact ih h

/-- If some grid that the search tries has a point, the search finds one. -/
theorem Span.search_ne_none {s : Span} {top : ℤ} {j : ℕ}
    (hj : (s.scale (top + 1 - j)).nearest? ≠ none) :
    ∀ tries count : ℕ, count ≤ j → j < count + tries →
      s.search top count tries ≠ none := by
  intro tries
  induction tries with
  | zero => intro count h1 h2; omega
  | succ tries ih =>
    intro count h1 h2
    unfold Span.search
    dsimp only
    split
    · exact Option.some_ne_none _
    · next hnone =>
      refine ih _ ?_ (by omega)
      by_contra hlt
      have hcount : count = j := by omega
      rw [hcount] at hnone
      exact hj hnone

-- ============================================== the ends of a span

/-- A scaled span has a denominator. -/
theorem Span.scale_denominator_pos {s : Span} (hd : 0 < s.denominator) (k : ℤ) :
    0 < (s.scale k).denominator := by
  unfold Span.scale
  split
  · dsimp only
    positivity
  · exact hd

/-- Its ends belong to it as before. -/
theorem Span.scale_closed (s : Span) (k : ℤ) : (s.scale k).closed = s.closed := by
  unfold Span.scale
  split <;> rfl

/-- Scaling divides the ends and the value by the power of ten. -/
theorem Span.scale_ratios (s : Span) (k : ℤ) :
    ((s.scale k).low : ℚ) / (s.scale k).denominator = s.low / s.denominator / 10 ^ k
    ∧ ((s.scale k).value : ℚ) / (s.scale k).denominator = s.value / s.denominator / 10 ^ k
    ∧ ((s.scale k).high : ℚ) / (s.scale k).denominator = s.high / s.denominator / 10 ^ k := by
  unfold Span.scale
  split
  · next hk =>
    rw [zpow_toNat 10 hk]
    simp only [div_div]
    push_cast
    exact ⟨rfl, rfl, rfl⟩
  · next hk =>
    rw [zpow_neg_toNat 10 hk]
    simp only [div_inv_eq_mul, div_mul_eq_mul_div]
    push_cast
    exact ⟨rfl, rfl, rfl⟩

/-- So has the span of a float. -/
theorem Span.ofDyadic_denominator_pos (p : Precision) (m : ℕ) (q : ℤ) :
    0 < (Span.ofDyadic p m q).denominator := by
  unfold Span.ofDyadic
  dsimp only
  split <;> positivity

/-- The span of a float counts in quarters of its last place. -/
theorem Span.ofDyadic_scale (p : Precision) (m : ℕ) (q : ℤ) (n : ℕ) :
    ((n * (if 0 ≤ q - 2 then 2 ^ (q - 2).toNat else 1) : ℕ) : ℚ)
        / (Span.ofDyadic p m q).denominator = n / 4 * 2 ^ q := by
  have hq : (2 : ℚ) ^ q = 2 ^ (q - 2) * 4 := by
    rw [zpow_sub₀ two_ne_zero]
    norm_num
  unfold Span.ofDyadic
  dsimp only
  by_cases hk : 0 ≤ q - 2
  · simp only [if_pos hk]
    rw [hq, zpow_toNat 2 hk]
    push_cast
    ring
  · simp only [if_neg hk]
    rw [hq, zpow_neg_toNat 2 hk, neg_sub]
    push_cast
    field_simp

/-- The ends of a float's span are those of its interval. -/
theorem Span.ofDyadic_ratios {m : ℕ} (hm : 0 < m) (q : ℤ) :
    ((Span.ofDyadic double m q).low : ℚ) / (Span.ofDyadic double m q).denominator
        = (m - gapBelow m q) * 2 ^ q
    ∧ ((Span.ofDyadic double m q).value : ℚ) / (Span.ofDyadic double m q).denominator
        = m * 2 ^ q
    ∧ ((Span.ofDyadic double m q).high : ℚ) / (Span.ofDyadic double m q).denominator
        = (m + 1 / 2) * 2 ^ q := by
  refine ⟨?_, ?_, ?_⟩
  · refine (Span.ofDyadic_scale double m q _).trans ?_
    congr 1
    unfold gapBelow double
    by_cases h : m = 2 ^ 52 ∧ -1074 < q
    · rw [if_pos h, if_pos (by simpa using h), Nat.cast_sub (by omega)]
      push_cast
      ring
    · rw [if_neg h, if_neg (by simpa using h), Nat.cast_sub (by omega)]
      push_cast
      ring
  · refine (Span.ofDyadic_scale double m q _).trans ?_
    push_cast
    ring
  · refine (Span.ofDyadic_scale double m q _).trans ?_
    push_cast
    ring

/-- The decimals in a float's span are those that round to it. -/
theorem Span.scale_holds_iff {m : ℕ} (hm : 0 < m) (q k : ℤ) (d : ℕ) :
    ((Span.ofDyadic double m q).scale k).holds d = true ↔ Nearest m q (d * 10 ^ k) := by
  have hden := Span.ofDyadic_denominator_pos double m q
  obtain ⟨hlow, -, hhigh⟩ := Span.scale_ratios (Span.ofDyadic double m q) k
  obtain ⟨hlow', -, hhigh'⟩ := Span.ofDyadic_ratios hm q
  have ht : (0 : ℚ) < 10 ^ k := by positivity
  have hclosed : ((Span.ofDyadic double m q).scale k).closed = false ↔ m % 2 = 1 := by
    rw [Span.scale_closed]
    simp [Span.ofDyadic]
  rw [Span.holds_iff (Span.scale_denominator_pos hden k), hlow, hhigh, hlow', hhigh',
    div_le_iff₀ ht, le_div_iff₀ ht, div_lt_iff₀ ht, lt_div_iff₀ ht, hclosed]
  exact ⟨fun h => ⟨h.1, h.2.1, h.2.2⟩, fun h => ⟨h.lower, h.upper, h.inner⟩⟩


-- ============================================== the decimal exponent

/-- The comparison with a power of ten is exact. -/
theorem belowPower_iff {n d : ℕ} (hd : 0 < d) (e : ℤ) :
    belowPower n d e = true ↔ (n : ℚ) / d < 10 ^ e := by
  have h := div_lt_zpow_iff (b := 10) (n := n) (by norm_num) hd e
  unfold belowPower
  rw [show ((10 : ℕ) : ℚ) = 10 by norm_num] at h
  rw [h]
  split <;> simp

/-- Once at or below the ratio, the steps stay there. -/
theorem le_decimalLog {n d : ℕ} (hd : 0 < d) :
    ∀ {steps : ℕ} {guess : ℤ}, (10 : ℚ) ^ guess ≤ n / d →
      (10 : ℚ) ^ decimalLog n d steps guess ≤ n / d := by
  intro steps
  induction steps with
  | zero => intro guess h; exact h
  | succ steps ih =>
    intro guess h
    unfold decimalLog
    rw [if_neg (by rw [belowPower_iff hd]; exact not_lt.2 h)]
    split
    · exact h
    · next habove =>
      rw [belowPower_iff hd] at habove
      exact ih (not_lt.1 habove)

/-- A guess that is at most one too high is mended by the first step. -/
theorem le_decimalLog_succ {n d : ℕ} (hd : 0 < d) {steps : ℕ} {guess : ℤ}
    (h : (10 : ℚ) ^ (guess - 1) ≤ n / d) :
    (10 : ℚ) ^ decimalLog n d (steps + 1) guess ≤ n / d := by
  by_cases hbelow : belowPower n d guess = true
  · unfold decimalLog
    rw [if_pos hbelow]
    exact le_decimalLog hd h
  · refine le_decimalLog hd ?_
    rw [belowPower_iff hd] at hbelow
    exact not_lt.1 hbelow

/-- Powers of ten and of two compared by their exponents: `59 / 196` and
`28 / 93` are just below and just above the logarithm of two. -/
theorem zpow_le_zpow_of_mul_le {a b : ℤ}
    (h : if 0 ≤ b then 196 * a ≤ 59 * b else 93 * a ≤ 28 * b) :
    (10 : ℚ) ^ a ≤ 2 ^ b := by
  split at h
  · next hb =>
    have hroot : ((10 : ℚ) ^ a) ^ 196 ≤ (2 ^ b) ^ 196 := by
      calc ((10 : ℚ) ^ a) ^ 196 = 10 ^ (196 * a) := by
            rw [← zpow_natCast, ← zpow_mul, mul_comm]; rfl
        _ ≤ 10 ^ (59 * b) := zpow_le_zpow_right₀ (by norm_num) h
        _ = (10 ^ 59) ^ b := by rw [zpow_mul]; norm_cast
        _ ≤ (2 ^ 196) ^ b := by
            rw [zpow_toNat _ hb, zpow_toNat _ hb]
            exact pow_le_pow_left₀ (by norm_num) (by norm_num) _
        _ = (2 ^ b) ^ 196 := by
            rw [← zpow_natCast (2 ^ b : ℚ), ← zpow_mul, mul_comm b, zpow_mul]; norm_cast
    exact le_of_pow_le_pow_left₀ (by norm_num) (by positivity) hroot
  · next hb =>
    have hroot : ((10 : ℚ) ^ a) ^ 93 ≤ (2 ^ b) ^ 93 := by
      calc ((10 : ℚ) ^ a) ^ 93 = 10 ^ (93 * a) := by
            rw [← zpow_natCast, ← zpow_mul, mul_comm]; rfl
        _ ≤ 10 ^ (28 * b) := zpow_le_zpow_right₀ (by norm_num) h
        _ = (10 ^ 28) ^ b := by rw [zpow_mul]; norm_cast
        _ ≤ (2 ^ 93) ^ b := by
            rw [zpow_neg_toNat _ hb, zpow_neg_toNat _ hb]
            refine inv_anti₀ (by positivity) ?_
            exact pow_le_pow_left₀ (by norm_num) (by norm_num) _
        _ = (2 ^ b) ^ 93 := by
            rw [← zpow_natCast (2 ^ b : ℚ), ← zpow_mul, mul_comm b, zpow_mul]; norm_cast
    exact le_of_pow_le_pow_left₀ (by norm_num) (by positivity) hroot

/-- The decimal exponent of a float is never too high. -/
theorem Span.le_decimalExponent {m : ℕ} {q : ℤ} (hreg : Regular m q) :
    (10 : ℚ) ^ (Span.ofDyadic double m q).decimalExponent ≤ m * 2 ^ q := by
  obtain ⟨hpos, hnarrow, hleast, hmost, -⟩ := hreg
  have hden := Span.ofDyadic_denominator_pos double m q
  obtain ⟨-, hvalue, -⟩ := Span.ofDyadic_ratios hpos q
  have hu : (0 : ℚ) < 2 ^ q := by positivity
  have hm1 : (1 : ℚ) ≤ m := by exact_mod_cast hpos
  have hm2 : (m : ℚ) < 2 ^ 53 := by exact_mod_cast hnarrow
  have hval : 0 < (Span.ofDyadic double m q).value := by
    have h0 : (0 : ℚ) < m * 2 ^ q := by positivity
    rw [← hvalue] at h0
    by_contra hn
    rw [Nat.eq_zero_of_not_pos hn] at h0
    simp at h0
  obtain ⟨hge, hlt⟩ := floorLog_bounds hval hden
  unfold Span.decimalExponent
  dsimp only
  rw [← hvalue]
  refine le_decimalLog_succ hden (le_trans (zpow_le_zpow_of_mul_le ?_) hge)
  rw [hvalue] at hge hlt
  -- the logarithm is between `q` and `q + 53`; there the guess is at most one too high
  have hlow : q < floorLog (Span.ofDyadic double m q).value
      (Span.ofDyadic double m q).denominator + 1 := by
    refine (zpow_lt_zpow_iff_right₀ (one_lt_two : (1 : ℚ) < 2)).1 (lt_of_le_of_lt ?_ hlt)
    nlinarith
  have hhigh : floorLog (Span.ofDyadic double m q).value
      (Span.ofDyadic double m q).denominator < q + 53 := by
    refine (zpow_lt_zpow_iff_right₀ (one_lt_two : (1 : ℚ) < 2)).1 (lt_of_le_of_lt hge ?_)
    rw [zpow_add₀ two_ne_zero, mul_comm]
    gcongr
    exact_mod_cast hm2
  split <;> omega

/-- On the grid of seventeen digits one of the neighbours of the float
lies in its interval. -/
theorem Span.nearest?_seventeen {m : ℕ} {q top : ℤ} (hreg : Regular m q)
    (htop : (10 : ℚ) ^ top ≤ m * 2 ^ q) :
    ((Span.ofDyadic double m q).scale (top + 1 - (17 : ℕ))).nearest? ≠ none := by
  obtain ⟨hpos, hnarrow, -, -, -⟩ := hreg
  have hden := Span.scale_denominator_pos (Span.ofDyadic_denominator_pos double m q)
    (top + 1 - (17 : ℕ))
  obtain ⟨-, hvalue, -⟩ := Span.scale_ratios (Span.ofDyadic double m q) (top + 1 - (17 : ℕ))
  obtain ⟨-, hvalue', -⟩ := Span.ofDyadic_ratios hpos q
  rw [hvalue'] at hvalue
  refine Span.nearest?_ne_none ?_
  rw [Span.scale_holds_iff hpos, Span.scale_holds_iff hpos]
  generalize hv : ((Span.ofDyadic double m q).scale (top + 1 - (17 : ℕ))).value = v at *
  generalize hd : ((Span.ofDyadic double m q).scale (top + 1 - (17 : ℕ))).denominator = d at *
  have hd' : (0 : ℚ) < d := by exact_mod_cast hden
  have ht : (0 : ℚ) < 10 ^ (top + 1 - (17 : ℕ)) := by positivity
  have hu : (0 : ℚ) < 2 ^ q := by positivity
  -- the grid is finer than the gap between floats
  have hgrid : (10 : ℚ) ^ 16 * 10 ^ (top + 1 - (17 : ℕ)) ≤ m * 2 ^ q := by
    refine le_trans (le_of_eq ?_) htop
    rw [← zpow_natCast, ← zpow_add₀ (by norm_num)]
    congr 1
    omega
  have hm2 : (m : ℚ) + 1 ≤ 2 ^ 53 := by exact_mod_cast hnarrow
  generalize (10 : ℚ) ^ (top + 1 - (17 : ℕ)) = t at *
  generalize hU : (2 : ℚ) ^ q = u at *
  have hfloor : ((v / d : ℕ) : ℚ) * t ≤ m * u := by
    have h1 : ((v / d : ℕ) : ℚ) ≤ (v : ℚ) / d := Nat.cast_div_le
    rw [hvalue] at h1
    exact (le_div_iff₀ ht).1 h1
  have hceil : m * u < (((v / d : ℕ) : ℚ) + 1) * t := by
    have h1 : (v : ℚ) / d < ((v / d : ℕ) : ℚ) + 1 := by
      rw [div_lt_iff₀ hd']
      have := Nat.lt_div_mul_add hden (a := v)
      have h2 : v < (v / d + 1) * d := by nlinarith
      exact_mod_cast h2
    rw [hvalue] at h1
    exact (div_lt_iff₀ ht).1 h1
  have hfine : t < u := by nlinarith
  by_cases hedge : m = 2 ^ 52 ∧ -1074 < q
  · -- the lower gap is half as wide, but the grid is finer still
    right
    have hm : (m : ℚ) = 2 ^ 52 := by exact_mod_cast hedge.1
    have hgap : gapBelow m q = 1 / 4 := if_pos hedge
    have hfine' : 2 * t < u := by
      rw [hm] at hgrid
      nlinarith
    refine Nearest.of_lt ?_ ?_
    · rw [hgap, hU]
      push_cast
      nlinarith
    · rw [hU]
      push_cast
      nlinarith
  · have hgap : gapBelow m q = 1 / 2 := if_neg hedge
    by_cases hhalf : m * u - ((v / d : ℕ) : ℚ) * t ≤ t / 2
    · left
      refine Nearest.of_lt ?_ ?_
      · rw [hgap, hU]
        linarith
      · rw [hU]
        linarith
    · right
      refine Nearest.of_lt ?_ ?_
      · rw [hgap, hU]
        push_cast
        linarith
      · rw [hU]
        push_cast
        linarith

-- ============================================== the result

/-- Dropping zeros keeps the value. -/
theorem Scaled.trim_value (d : Scaled) (count : ℕ) :
    ((d.trim count).digits : ℚ) * 10 ^ (d.trim count).exponent = d.digits * 10 ^ d.exponent := by
  induction count generalizing d with
  | zero => rfl
  | succ count ih =>
    unfold Scaled.trim
    split
    · next h =>
      rw [ih]
      simp only [Bool.and_eq_true, bne_iff_ne, beq_iff_eq] at h
      have hdigits : d.digits = d.digits / 10 * 10 := by omega
      have hcast : (d.digits : ℚ) = (d.digits / 10 : ℕ) * 10 := by exact_mod_cast hdigits
      rw [hcast, zpow_add_one₀ (by norm_num)]
      ring
    · rfl

/-- The shortest decimal of a float rounds to it. -/
theorem shortest_nearest {m : ℕ} {q : ℤ} (hreg : Regular m q) :
    Nearest m q ((shortest double m q).digits * 10 ^ (shortest double m q).exponent) := by
  have hpoint := Span.nearest?_seventeen hreg (Span.le_decimalExponent hreg)
  have hsome := Span.search_ne_none hpoint 17 1 (by omega) (by omega)
  unfold shortest
  dsimp only
  cases hsearch : (Span.ofDyadic double m q).search
      (Span.ofDyadic double m q).decimalExponent 1 17 with
  | none => exact absurd hsearch hsome
  | some d =>
    dsimp only
    rw [Scaled.trim_value]
    exact (Span.scale_holds_iff hreg.positive q d.exponent d.digits).1 (Span.search_holds hsearch)

end LispShell.Decimal
