/-
Floats in order.

# Ranks

The bits of a float below its sign, taken as a number and given that sign,
are its rank. Floats that are numbers are ordered as their ranks are, and
equal if their ranks are, the two zeros included (`lt_iff_rank`,
`beq_iff_rank`): the bits of the exponent stand above those of the
significand, so a larger exponent is a larger rank whatever the significand
is. Hence the order of floats is total on numbers without further ado.

# Rounding keeps the order

A larger ratio rounds to no smaller bits (`ratioBits_mono`). Within one
binade that is a fact about rounding to whole numbers (`roundDiv_mono`).
From one binade to the next the significand may fall from `2^53` to `2^52`,
but then the exponent has grown by one, which is as much. So converting
integers to floats keeps their order (`rank_ofInt_mono`), up to the
infinities that very large ones become.
-/
import LispShell.Proofs.Binary64

namespace LispShell.Binary64

open Float.Model Float.Model.UnpackedFloat

-- ====================================================== ranks

/-- The bits below the sign, with that sign. -/
def rank (x : Float) : ℤ :=
  if signBit x then -((x.toBits.toNat % 2 ^ 63 : ℕ) : ℤ) else (x.toBits.toNat % 2 ^ 63 : ℕ)

theorem Regular.dyadicBits_pos {m : ℕ} {q : ℤ} (h : Regular m q) : 0 < dyadicBits m q :=
  Nat.lt_of_lt_of_le h.positive (Nat.le_add_left m _)

/-- The bits of a regular pair are those of a finite float. -/
theorem Regular.dyadicBits_lt {m : ℕ} {q : ℤ} (h : Regular m q) :
    dyadicBits m q < infinityBits := by
  have := h.narrow
  have := h.most
  unfold dyadicBits infinityBits
  omega

/-- A larger exponent makes larger bits, whatever the significand. -/
theorem Regular.dyadicBits_lt_of_exponent_lt {m n : ℕ} {q p : ℤ} (h : Regular m q)
    (h' : Regular n p) (hqp : q < p) : dyadicBits m q < dyadicBits n p := by
  have hlow := h.least
  have hm := h.narrow
  have hn := h'.full (by omega)
  unfold dyadicBits
  omega

/-- Exponents are compared first, then significands, and so are the bits. -/
theorem Regular.compare_dyadicBits {m n : ℕ} {q p : ℤ} (h : Regular m q) (h' : Regular n p) :
    (compare q p).then (compare m n) = compare (dyadicBits m q) (dyadicBits n p) := by
  rcases lt_trichotomy q p with hqp | rfl | hqp
  · rw [compare_lt_iff_lt.2 hqp, compare_lt_iff_lt.2 (h.dyadicBits_lt_of_exponent_lt h' hqp)]
    rfl
  · rw [compare_eq_iff_eq.2 rfl, Ordering.eq_then]
    unfold dyadicBits
    rcases lt_trichotomy m n with hmn | rfl | hmn
    · rw [compare_lt_iff_lt.2 hmn, compare_lt_iff_lt.2 (by omega)]
    · rw [compare_eq_iff_eq.2 rfl, compare_eq_iff_eq.2 rfl]
    · rw [compare_gt_iff_gt.2 hmn, compare_gt_iff_gt.2 (by omega)]
  · rw [compare_gt_iff_gt.2 hqp, compare_gt_iff_gt.2 (h'.dyadicBits_lt_of_exponent_lt h hqp)]
    rfl

/-- What a float is unpacked to, by its sign and the bits below it. -/
inductive Unpacks (s : Sign) (k : ℕ) : UnpackedFloat → Prop where
  | nan (h : infinityBits < k) : Unpacks s k .notANumber
  | infinity (h : k = infinityBits) : Unpacks s k (.infinity s)
  | zero (h : k = 0) : Unpacks s k (.zero s)
  | finite {m : ℕ} {q : ℤ} (positive : 0 < m) (hreg : Regular m q) (h : k = dyadicBits m q) :
      Unpacks s k (.finite s m q positive)

/-- The sign of a float. -/
def signOf (x : Float) : Sign :=
  if signBit x then .negative else .positive

/-- The sign bit, as a sign. -/
theorem ofBitVec_unpackSign (x : Float) :
    Sign.ofBitVec (@unpackSign .binary64 x.toBits.toBitVec) = signOf x := by
  have hlt : x.toBits.toNat < 2 ^ 64 := x.toBits.toNat_lt
  have hbit : (@unpackSign .binary64 x.toBits.toBitVec).toNat = x.toBits.toNat / 2 ^ 63 := by
    simp only [unpackSign, BitVec.toNat_cast, BitVec.extractLsb_toNat, Nat.shiftRight_eq_div_pow,
      UInt64.toNat_toBitVec]
    norm_num
    omega
  have hzero : @unpackSign .binary64 x.toBits.toBitVec = 0#1 ↔ ¬2 ^ 63 ≤ x.toBits.toNat := by
    rw [← BitVec.toNat_inj, hbit, BitVec.toNat_ofNat]
    omega
  unfold Sign.ofBitVec signOf signBit
  by_cases hneg : 2 ^ 63 ≤ x.toBits.toNat
  · rw [if_neg fun h => hzero.1 h hneg, if_pos (decide_eq_true hneg)]
  · rw [if_pos (hzero.2 hneg), if_neg (by simpa using hneg)]

/-- Every float is unpacked as its bits say. -/
theorem unpacks (x : Float) :
    Unpacks (signOf x) (x.toBits.toNat % 2 ^ 63) x.toModel.unpack := by
  have hexp := toNat_unpackExponent x.toBits.toBitVec
  have hmant := toNat_unpackMantissa x.toBits.toBitVec
  rw [UInt64.toNat_toBitVec] at hexp hmant
  have hfull : (1#1 ++ @unpackMantissa .binary64 x.toBits.toBitVec).toNat
      = 2 ^ 52 + x.toBits.toNat % 2 ^ 52 := by
    rw [BitVec.toNat_append, ← Nat.shiftLeft_add_eq_or_of_lt (BitVec.isLt _), hmant]
    rfl
  have hbias : ((Format.binary64.exponentBias : ℕ) : ℤ) = 1023 := rfl
  show Unpacks _ _ (UnpackedFloat.unpack .binary64 x.toBits.toBitVec)
  unfold UnpackedFloat.unpack
  dsimp only
  rw [ofBitVec_unpackSign]
  -- one case for each kind of float, by its exponent and its significand
  split
  · next hall =>
    have hall' : x.toBits.toNat % 2 ^ 63 / 2 ^ 52 = 2047 := by
      rw [← hexp, hall]
      rfl
    split
    · next hzero =>
      rw [hzero] at hmant
      refine .infinity ?_
      unfold infinityBits
      have : 0 = x.toBits.toNat % 2 ^ 52 := hmant
      omega
    · next hsome =>
      have hne : x.toBits.toNat % 2 ^ 52 ≠ 0 := fun h =>
        hsome (BitVec.eq_of_toNat_eq (hmant.trans h))
      refine .nan ?_
      unfold infinityBits
      omega
  · next hall =>
    have hlt : x.toBits.toNat % 2 ^ 63 / 2 ^ 52 ≠ 2047 := fun h =>
      hall (BitVec.eq_of_toNat_eq (hexp.trans h))
    split
    · next hleast =>
      have hleast' : x.toBits.toNat % 2 ^ 63 / 2 ^ 52 = 0 := by
        rw [← hexp, hleast]
        rfl
      split
      · next hzero =>
        rw [hzero] at hmant
        refine .zero ?_
        have : 0 = x.toBits.toNat % 2 ^ 52 := hmant
        omega
      · next hsome =>
        have hne : x.toBits.toNat % 2 ^ 52 ≠ 0 := fun h =>
          hsome (BitVec.eq_of_toNat_eq (hmant.trans h))
        refine .finite _ ?_ ?_
        · rw [hexp, hmant, hbias, hleast']
          exact ⟨by omega, by omega, by omega, by omega, by omega⟩
        · rw [hexp, hmant, hbias, hleast']
          unfold dyadicBits
          omega
    · next hnormal =>
      have hpos : x.toBits.toNat % 2 ^ 63 / 2 ^ 52 ≠ 0 := fun h =>
        hnormal (BitVec.eq_of_toNat_eq (hexp.trans h))
      refine .finite _ ?_ ?_
      · rw [hexp, hfull, hbias]
        exact ⟨by omega, by omega, by omega, by omega, by omega⟩
      · rw [hexp, hfull, hbias]
        unfold dyadicBits
        omega

-- ====================================================== the order of floats

/-- A sign turns the order of magnitudes round, or leaves it. -/
theorem compare_apply (s : Sign) (k l : ℕ) :
    compare (s.apply k) (s.apply l) = match s with
      | .positive => compare k l
      | .negative => (compare k l).swap := by
  rcases lt_trichotomy k l with h | rfl | h
  · rw [compare_lt_iff_lt.2 h]
    cases s with
    | positive => exact compare_lt_iff_lt.2 (Int.ofNat_lt.2 h)
    | negative => exact compare_gt_iff_gt.2 (neg_lt_neg (Int.ofNat_lt.2 h))
  · rw [compare_eq_iff_eq.2 rfl, compare_eq_iff_eq.2 rfl]
    cases s <;> rfl
  · rw [compare_gt_iff_gt.2 h]
    cases s with
    | positive => exact compare_gt_iff_gt.2 (Int.ofNat_lt.2 h)
    | negative => exact compare_lt_iff_lt.2 (neg_lt_neg (Int.ofNat_lt.2 h))

/-- Floats of one sign are compared by the bits below it. -/
theorem Unpacks.compare_same {s : Sign} {k l : ℕ} {u v : UnpackedFloat} (hu : Unpacks s k u)
    (hv : Unpacks s l v) (hk : k ≤ infinityBits) (hl : l ≤ infinityBits) :
    u.compare v = some (compare (s.apply k) (s.apply l)) := by
  have hinf : 0 < infinityBits := by decide
  rw [compare_apply]
  -- By what the two floats are. Not a number is above infinity, and all other kinds are apart in
  -- their bits, which leaves two finite ones.
  cases hu with
  | nan h => omega
  | infinity h =>
    cases hv with
    | nan h' => omega
    | infinity h' =>
      rw [compare_eq_iff_eq.2 (h.trans h'.symm)]
      cases s <;> rfl
    | zero h' =>
      rw [compare_gt_iff_gt.2 (by omega)]
      cases s <;> rfl
    | finite pos hreg h' =>
      have := hreg.dyadicBits_lt
      rw [compare_gt_iff_gt.2 (by omega)]
      cases s <;> rfl
  | zero h =>
    cases hv with
    | nan h' => omega
    | infinity h' =>
      rw [compare_lt_iff_lt.2 (by omega)]
      cases s <;> rfl
    | zero h' =>
      rw [compare_eq_iff_eq.2 (h.trans h'.symm)]
      cases s <;> rfl
    | finite pos hreg h' =>
      have := hreg.dyadicBits_pos
      rw [compare_lt_iff_lt.2 (by omega)]
      cases s <;> rfl
  | finite pos hreg h =>
    have := hreg.dyadicBits_pos
    have := hreg.dyadicBits_lt
    cases hv with
    | nan h' => omega
    | infinity h' =>
      rw [compare_lt_iff_lt.2 (by omega)]
      cases s <;> rfl
    | zero h' =>
      rw [compare_gt_iff_gt.2 (by omega)]
      cases s <;> rfl
    | finite pos' hreg' h' =>
      rw [h, h', ← hreg.compare_dyadicBits hreg']
      cases s <;> rfl

theorem Unpacks.eq_zero {s : Sign} {u : UnpackedFloat} (h : Unpacks s 0 u) : u = .zero s := by
  cases h with
  | nan h => exact absurd h (by decide)
  | infinity h => exact absurd h (by decide)
  | zero => rfl
  | finite pos hreg h => exact absurd h hreg.dyadicBits_pos.ne

/-- What is below zero comes before what is above it; the zeros are
equal. -/
theorem Unpacks.compare_opposite {k l : ℕ} {u v : UnpackedFloat} (hu : Unpacks .negative k u)
    (hv : Unpacks .positive l v) (hk : k ≤ infinityBits) (hl : l ≤ infinityBits) :
    u.compare v = some (compare (Sign.negative.apply k) (Sign.positive.apply l))
      ∧ v.compare u = some (compare (Sign.positive.apply l) (Sign.negative.apply k)) := by
  simp only [Sign.apply]
  by_cases hzero : k = 0 ∧ l = 0
  · obtain ⟨rfl, rfl⟩ := hzero
    rw [hu.eq_zero, hv.eq_zero]
    exact ⟨rfl, rfl⟩
  · rw [compare_lt_iff_lt.2 (by omega), compare_gt_iff_gt.2 (by omega)]
    cases hu with
    | nan h => omega
    | infinity h =>
      cases hv with
      | nan h' => omega
      | _ => exact ⟨rfl, rfl⟩
    | zero h =>
      cases hv with
      | nan h' => omega
      | zero h' => exact absurd ⟨h, h'⟩ hzero
      | _ => exact ⟨rfl, rfl⟩
    | finite pos hreg h =>
      cases hv with
      | nan h' => omega
      | _ => exact ⟨rfl, rfl⟩

/-- What is above infinity is not a number. -/
theorem isNaN_eq (x : Float) : x.isNaN = decide (infinityBits < x.toBits.toNat % 2 ^ 63) := by
  have hx := unpacks x
  show x.toModel.unpack.isNaN = _
  generalize x.toModel.unpack = u at hx
  cases hx with
  | nan h => exact (decide_eq_true h).symm
  | infinity h => exact (decide_eq_false (by omega)).symm
  | zero h => exact (decide_eq_false (by omega)).symm
  | finite pos hreg h =>
    have := hreg.dyadicBits_lt
    exact (decide_eq_false (by omega)).symm

/-- Floats that are numbers are compared by their ranks. -/
theorem compare_unpack {x y : Float} (hx : x.isNaN = false) (hy : y.isNaN = false) :
    x.toModel.unpack.compare y.toModel.unpack = some (compare (rank x) (rank y)) := by
  rw [isNaN_eq, decide_eq_false_iff_not, not_lt] at hx hy
  have hux := unpacks x
  have huy := unpacks y
  unfold signOf at hux huy
  unfold rank
  by_cases hsx : signBit x = true <;> by_cases hsy : signBit y = true
  · rw [if_pos hsx] at hux ⊢
    rw [if_pos hsy] at huy ⊢
    exact hux.compare_same huy hx hy
  · rw [if_pos hsx] at hux ⊢
    rw [if_neg hsy] at huy ⊢
    exact (hux.compare_opposite huy hx hy).1
  · rw [if_neg hsx] at hux ⊢
    rw [if_pos hsy] at huy ⊢
    exact (huy.compare_opposite hux hy hx).2
  · rw [if_neg hsx] at hux ⊢
    rw [if_neg hsy] at huy ⊢
    exact hux.compare_same huy hx hy

/-- Floats are ordered by their rank. -/
theorem lt_iff_rank {x y : Float} (hx : x.isNaN = false) (hy : y.isNaN = false) :
    x < y ↔ rank x < rank y := by
  have hcompare := compare_unpack hx hy
  show decide (x.toModel.unpack.lt y.toModel.unpack = true) = true ↔ _
  rw [decide_eq_true_eq, UnpackedFloat.lt, hcompare, beq_iff_eq, Option.some_inj,
    compare_lt_iff_lt]

/-- They are equal if their ranks are. -/
theorem beq_iff_rank {x y : Float} (hx : x.isNaN = false) (hy : y.isNaN = false) :
    (x == y) = true ↔ rank x = rank y := by
  have hcompare := compare_unpack hx hy
  show x.toModel.unpack.beq y.toModel.unpack = true ↔ _
  rw [UnpackedFloat.beq, hcompare, beq_iff_eq, Option.some_inj, compare_eq_iff_eq]

-- ====================================================== rounding keeps the order

/-- The rounded quotient is at most half a unit away, and if it is odd less
than that. -/
theorem roundDiv_near {N D : ℕ} (hD : 0 < D) :
    (roundDiv N D : ℚ) - 1 / 2 ≤ N / D ∧ (N : ℚ) / D ≤ roundDiv N D + 1 / 2
      ∧ (roundDiv N D % 2 = 1 →
        (roundDiv N D : ℚ) - 1 / 2 < N / D ∧ (N : ℚ) / D < roundDiv N D + 1 / 2) := by
  have hD' : (0 : ℚ) < D := by exact_mod_cast hD
  have hsplit : (N : ℚ) = D * (N / D : ℕ) + (N % D : ℕ) := by
    exact_mod_cast (Nat.div_add_mod N D).symm
  have hrem : (0 : ℚ) ≤ (N % D : ℕ) := Nat.cast_nonneg _
  have hrem' : ((N % D : ℕ) : ℚ) < D := by exact_mod_cast Nat.mod_lt N hD
  rw [le_div_iff₀ hD', div_le_iff₀ hD', lt_div_iff₀ hD', div_lt_iff₀ hD']
  -- cleared of the denominator, each bound is linear in the quotient and the remainder
  unfold roundDiv
  dsimp only
  split
  · next hlow =>
    have hlow' : (2 : ℚ) * (N % D : ℕ) < D := by exact_mod_cast hlow
    refine ⟨?_, ?_, fun _ => ⟨?_, ?_⟩⟩ <;> linarith
  · next hlow =>
    have hlow' : (D : ℚ) ≤ 2 * (N % D : ℕ) := by exact_mod_cast not_lt.1 hlow
    split
    · next hhigh =>
      have hhigh' : (D : ℚ) < 2 * (N % D : ℕ) := by exact_mod_cast hhigh
      push_cast
      refine ⟨?_, ?_, fun _ => ⟨?_, ?_⟩⟩ <;> linarith
    · next hhigh =>
      have hhigh' : (2 : ℚ) * (N % D : ℕ) ≤ D := by exact_mod_cast not_lt.1 hhigh
      split
      · next heven =>
        rw [beq_iff_eq] at heven
        refine ⟨?_, ?_, fun hodd => by omega⟩ <;> linarith
      · next heven =>
        rw [beq_iff_eq] at heven
        push_cast
        refine ⟨?_, ?_, fun hodd => by omega⟩ <;> linarith

/-- A larger quotient rounds to no smaller number. -/
theorem roundDiv_mono {N D N' D' : ℕ} (hD : 0 < D) (hD' : 0 < D')
    (h : (N : ℚ) / D ≤ N' / D') : roundDiv N D ≤ roundDiv N' D' := by
  obtain ⟨hlow, -, hodd⟩ := roundDiv_near (N := N) hD
  obtain ⟨-, hhigh, hodd'⟩ := roundDiv_near (N := N') hD'
  by_contra hlt
  have hstep : (roundDiv N' D' : ℚ) + 1 ≤ roundDiv N D := by exact_mod_cast not_le.1 hlt
  -- both quotients are the half between two neighbours, one of which is odd
  have hneighbours : roundDiv N D = roundDiv N' D' + 1 := by
    have : (roundDiv N D : ℚ) = roundDiv N' D' + 1 := by linarith
    exact_mod_cast this
  rcases Nat.mod_two_eq_zero_or_one (roundDiv N D) with heven | hodd₁
  · have := (hodd' (by omega)).2
    linarith
  · have := (hodd hodd₁).1
    linarith

/-- Rounding in units of `2^q` is rounding a quotient, for either sign of
`q`. -/
theorem roundScaled_quotient (n : ℕ) {d : ℕ} (hd : 0 < d) (q : ℤ) :
    ∃ N D : ℕ, 0 < D ∧ (N : ℚ) / D = n / d / 2 ^ q
      ∧ (if 0 ≤ q then roundDiv n (d * 2 ^ q.toNat) else roundDiv (n * 2 ^ (-q).toNat) d)
        = roundDiv N D := by
  by_cases hq : 0 ≤ q
  · refine ⟨n, d * 2 ^ q.toNat, by positivity, ?_, if_pos hq⟩
    rw [zpow_toNat 2 hq, div_div]
    push_cast
    rfl
  · refine ⟨n * 2 ^ (-q).toNat, d, hd, ?_, if_neg hq⟩
    rw [zpow_neg_toNat 2 hq, div_inv_eq_mul, div_mul_eq_mul_div]
    push_cast
    rfl

theorem roundDiv_one (r : ℕ) : roundDiv r 1 = r := by
  unfold roundDiv
  simp [Nat.mod_one]

/-- The exponent that a ratio is rounded with. -/
def exponentOf (n d : ℕ) : ℤ := max (floorLog n d - 52) (-1074)

/-- The significand that a ratio is rounded to. -/
def significandOf (n d : ℕ) : ℕ :=
  if 0 ≤ exponentOf n d then roundDiv n (d * 2 ^ (exponentOf n d).toNat)
  else roundDiv (n * 2 ^ (-exponentOf n d).toNat) d

theorem ratioBits_eq_dyadic {n d : ℕ} (hn : 0 < n) :
    ratioBits n d = min (dyadicBits (significandOf n d) (exponentOf n d)) infinityBits :=
  if_neg (by simpa using hn.ne')

/-- The significand has at most 53 bits, or is the power of two after
them. -/
theorem significandOf_le {n d : ℕ} (hn : 0 < n) (hd : 0 < d) : significandOf n d ≤ 2 ^ 53 := by
  obtain ⟨N, D, hD, hquotient, hround⟩ := roundScaled_quotient n hd (exponentOf n d)
  have hu : (0 : ℚ) < 2 ^ exponentOf n d := by positivity
  have hlt : (n : ℚ) / d ≤ 2 ^ 53 * 2 ^ exponentOf n d := by
    refine (floorLog_bounds hn hd).2.le.trans ?_
    rw [← zpow_natCast, ← zpow_add₀ two_ne_zero]
    refine zpow_le_zpow_right₀ one_le_two ?_
    unfold exponentOf
    omega
  rw [significandOf, hround, ← roundDiv_one (2 ^ 53)]
  refine roundDiv_mono hD one_pos ?_
  rw [hquotient, div_le_iff₀ hu, Nat.cast_one, div_one]
  push_cast
  exact hlt

/-- Above the least exponent the significand has all its bits. -/
theorem le_significandOf {n d : ℕ} (hn : 0 < n) (hd : 0 < d) (hq : -1074 < exponentOf n d) :
    2 ^ 52 ≤ significandOf n d := by
  obtain ⟨N, D, hD, hquotient, hround⟩ := roundScaled_quotient n hd (exponentOf n d)
  have hu : (0 : ℚ) < 2 ^ exponentOf n d := by positivity
  have hle : (2 : ℚ) ^ 52 * 2 ^ exponentOf n d ≤ n / d := by
    refine le_trans ?_ (floorLog_bounds hn hd).1
    rw [← zpow_natCast, ← zpow_add₀ two_ne_zero]
    refine zpow_le_zpow_right₀ one_le_two ?_
    unfold exponentOf at hq ⊢
    omega
  rw [significandOf, hround, ← roundDiv_one (2 ^ 52)]
  refine roundDiv_mono one_pos hD ?_
  rw [hquotient, le_div_iff₀ hu, Nat.cast_one, div_one]
  push_cast
  exact hle

/-- A larger fraction has no smaller exponent. -/
theorem exponentOf_mono {n d n' d' : ℕ} (hn : 0 < n) (hd : 0 < d) (hn' : 0 < n') (hd' : 0 < d')
    (h : (n : ℚ) / d ≤ n' / d') : exponentOf n d ≤ exponentOf n' d' := by
  have hpowers : (2 : ℚ) ^ floorLog n d < 2 ^ (floorLog n' d' + 1) :=
    ((floorLog_bounds hn hd).1.trans h).trans_lt (floorLog_bounds hn' hd').2
  have hlogs := (zpow_lt_zpow_iff_right₀ (one_lt_two : (1 : ℚ) < 2)).1 hpowers
  unfold exponentOf
  omega

/-- In units of one power of two, a larger ratio has no smaller
significand. -/
theorem significandOf_mono {n d n' d' : ℕ} (hd : 0 < d) (hd' : 0 < d')
    (hq : exponentOf n d = exponentOf n' d') (h : (n : ℚ) / d ≤ n' / d') :
    significandOf n d ≤ significandOf n' d' := by
  obtain ⟨N, D, hD, hquotient, hround⟩ := roundScaled_quotient n hd (exponentOf n d)
  obtain ⟨N', D', hD', hquotient', hround'⟩ := roundScaled_quotient n' hd' (exponentOf n' d')
  have hu : (0 : ℚ) < 2 ^ exponentOf n' d' := by positivity
  rw [significandOf, hround, significandOf, hround']
  refine roundDiv_mono hD hD' ?_
  rw [hquotient, hquotient', hq]
  exact div_le_div_of_nonneg_right h hu.le

/-- A larger ratio rounds to no smaller float. -/
theorem ratioBits_mono {n d n' d' : ℕ} (hd : 0 < d) (hd' : 0 < d')
    (h : (n : ℚ) / d ≤ n' / d') : ratioBits n d ≤ ratioBits n' d' := by
  rcases Nat.eq_zero_or_pos n with rfl | hn
  · exact Nat.zero_le _
  · have hn' : 0 < n' := by
      have hpos : (0 : ℚ) < n / d := by positivity
      rcases Nat.eq_zero_or_pos n' with rfl | hn'
      · rw [Nat.cast_zero, zero_div] at h
        linarith
      · exact hn'
    have hexponents := exponentOf_mono hn hd hn' hd' h
    have hleast : -1074 ≤ exponentOf n d := le_max_right _ _
    rw [ratioBits_eq_dyadic hn, ratioBits_eq_dyadic hn']
    refine min_le_min_right _ ?_
    unfold dyadicBits
    rcases hexponents.eq_or_lt with hsame | hgrown
    · have hsignificands := significandOf_mono hd hd' hsame h
      rw [hsame]
      omega
    · -- a full binade lies between, which the carry to `2^53` just fills
      have hcarry := significandOf_le hn hd
      have hfull := le_significandOf hn' hd' (by omega)
      omega

-- ====================================================== integers as floats

/-- No fraction is rounded above infinity. -/
theorem ratioBits_le (n d : ℕ) : ratioBits n d ≤ infinityBits := by
  unfold ratioBits
  split
  · exact Nat.zero_le _
  · exact min_le_right _ _

/-- Bits that are not past infinity are those of their float. -/
theorem toBits_ofBits {b : UInt64} (hb : b.toNat % 2 ^ 63 ≤ infinityBits) :
    (Float.ofBits b).toBits = b := by
  have hvalid : Format.binary64.Valid b.toBitVec := by
    refine ⟨fun hall hsome => absurd ?_ hsome⟩
    have hexp := congrArg BitVec.toNat hall
    rw [toNat_unpackExponent, UInt64.toNat_toBitVec] at hexp
    have hones : b.toNat % 2 ^ 63 / 2 ^ 52 = 2047 := hexp
    refine BitVec.eq_of_toNat_eq ?_
    rw [toNat_unpackMantissa, UInt64.toNat_toBitVec]
    show b.toNat % 2 ^ 52 = 0
    unfold infinityBits at hb
    omega
  simp only [Float.ofBits, Float.toBits, Float.Model.ofBits, Float.Model.pack]
  exact congrArg UInt64.ofBitVec (pack_unpack hvalid)

/-- A float made of a sign and bits up to those of infinity has that rank
and is a number. -/
theorem rank_ofMagnitude (negative : Bool) {k : ℕ} (hk : k ≤ infinityBits) :
    rank (ofMagnitude negative k) = (if negative then -(k : ℤ) else k)
      ∧ (ofMagnitude negative k).isNaN = false := by
  have hinf : infinityBits < 2 ^ 63 := by decide
  have hword : ∃ b : UInt64, ofMagnitude negative k = Float.ofBits b
      ∧ b.toNat = if negative then 2 ^ 63 + k else k := by
    cases negative with
    | false => exact ⟨_, rfl, Nat.mod_eq_of_lt (by omega)⟩
    | true => exact ⟨_, rfl, Nat.mod_eq_of_lt (by omega)⟩
  obtain ⟨b, hfloat, hb⟩ := hword
  have hbelow : b.toNat % 2 ^ 63 = k := by
    rw [hb]
    split <;> omega
  have hbits : (ofMagnitude negative k).toBits = b := by
    rw [hfloat]
    exact toBits_ofBits (by omega)
  rw [isNaN_eq, rank, signBit, hbits, hbelow, hb]
  refine ⟨?_, decide_eq_false (by omega)⟩
  cases negative with
  | false => rw [if_neg (by simpa using by omega), if_neg (by decide)]
  | true => rw [if_pos (by simp), if_pos rfl]

/-- An integer is a number as a float. -/
theorem isNaN_ofInt (n : ℤ) : (ofInt n).isNaN = false :=
  (rank_ofMagnitude _ (ratioBits_le _ _)).2

/-- Integers become floats in their order. -/
theorem rank_ofInt_mono {m n : ℤ} (h : m ≤ n) : rank (ofInt m) ≤ rank (ofInt n) := by
  have hmono : ∀ {k l : ℕ}, k ≤ l → ratioBits k 1 ≤ ratioBits l 1 := by
    intro k l hkl
    refine ratioBits_mono one_pos one_pos ?_
    rw [Nat.cast_one, div_one, div_one]
    exact_mod_cast hkl
  have hrank : ∀ z : ℤ, rank (ofInt z)
      = if decide (z < 0) then -(ratioBits z.natAbs 1 : ℤ) else ratioBits z.natAbs 1 :=
    fun z => (rank_ofMagnitude _ (ratioBits_le _ _)).1
  rw [hrank, hrank]
  rcases lt_or_ge m 0 with hm | hm
  · rw [if_pos (decide_eq_true hm)]
    rcases lt_or_ge n 0 with hn | hn
    · rw [if_pos (decide_eq_true hn)]
      have := hmono (show n.natAbs ≤ m.natAbs by omega)
      omega
    · rw [if_neg (by simpa using hn)]
      omega
  · rw [if_neg (by simpa using hm), if_neg (by simpa using hm.trans h)]
    have := hmono (show m.natAbs ≤ n.natAbs by omega)
    omega

end LispShell.Binary64
