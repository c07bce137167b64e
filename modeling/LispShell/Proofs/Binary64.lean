/-
Floats are their bits, and rounding finds them again.

# The bits

A float is determined by its 64 bits, except that everything that is not
a number is one float (`ofBits_toBits`, `eq_nan`). So what `view` tells
about a float gives the float back (`eq_of_view`): a finite one is
`± m · 2^q` with a significand and an exponent that the format has
(`Regular`), and its bits below the sign are `dyadicBits m q`.

# Rounding

`Nearest m q x` says that the rational `x` lies in the interval of the
reals that round to `m · 2^q`: half a step up, half a step down, and only
a quarter below a power of two, where the floats stand twice as close.
The ends belong to the interval exactly if `m` is even. `ratioBits_eq` is
the main result: a ratio in that interval rounds to `dyadicBits m q`.

The rounding takes its exponent from the ratio and not from the float. The
two differ in one case: just below a power of two the ratio lies in the
binade before. There the rounded significand is `2^53` at the exponent one
lower, and the carry into the exponent bits makes the same bits of it.
-/
import Mathlib
import LispShell.Binary64

namespace LispShell.Binary64

open Float.Model Float.Model.UnpackedFloat

-- ============================================== a float is its bits

/-- The exponent field, as a number. -/
theorem toNat_unpackExponent (b : BitVec Format.binary64.numBits) :
    (unpackExponent b).toNat = b.toNat % 2 ^ 63 / 2 ^ 52 := by
  simp only [unpackExponent, BitVec.toNat_cast, BitVec.extractLsb_toNat,
    Nat.shiftRight_eq_div_pow]
  norm_num
  omega

/-- The mantissa field, as a number. -/
theorem toNat_unpackMantissa (b : BitVec Format.binary64.numBits) :
    (unpackMantissa b).toNat = b.toNat % 2 ^ 52 := by
  simp only [unpackMantissa, BitVec.toNat_cast, BitVec.extractLsb_toNat,
    Nat.shiftRight_zero]

/-- The three fields of a word put together again are the word. -/
theorem packComponents_unpack (b : BitVec Format.binary64.numBits) :
    packComponents .binary64 (Sign.ofBitVec (unpackSign b)) (unpackExponent b)
      (unpackMantissa b) = b := by
  have hsign : ∀ s : BitVec 1, (Sign.ofBitVec s).toBitVec = s := by decide
  unfold packComponents
  rw [hsign]
  refine BitVec.eq_of_getLsbD_eq fun i hi => ?_
  simp only [unpackSign, unpackExponent, unpackMantissa, BitVec.getLsbD_append,
    BitVec.getLsbD_cast, BitVec.getLsbD_extractLsb]
  grind

/-- Packing undoes unpacking, one case per kind of float. -/
theorem pack_unpack {b : BitVec Format.binary64.numBits} (hb : Format.binary64.Valid b) :
    UnpackedFloat.pack .binary64 (UnpackedFloat.unpack .binary64 b) = b := by
  have hmant : (unpackMantissa b).toNat < 2 ^ 52 := (unpackMantissa b).isLt
  have hexp : (unpackExponent b).toNat < 2 ^ 11 := (unpackExponent b).isLt
  have hback := packComponents_unpack b
  unfold UnpackedFloat.unpack
  dsimp only
  split
  · next hall =>
    split
    · next hzero =>
      rw [hall, hzero] at hback
      exact hback
    · next hne => exact (hb.eq_packedNaN hall hne).symm
  · next hnot =>
    split
    · next hsub =>
      split
      · next hzero =>
        rw [hsub, hzero] at hback
        exact hback
      · next hne =>
        have hpos : (unpackMantissa b).toNat ≠ 0 := fun h => hne (BitVec.eq_of_toNat_eq h)
        have hlog : (unpackMantissa b).toNat.log2 < 52 := (Nat.log2_lt hpos).2 hmant
        rw [UnpackedFloat.pack, if_neg, if_neg, BitVec.ofNat_toNat, BitVec.setWidth_eq,
          ← hsub]
        · exact hback
        · simp only [Format.mantissaBits]
          omega
        · rw [hsub]
          decide
    · next hnormal =>
      have hlt : (unpackExponent b).toNat < 2047 := by
        have hne : (unpackExponent b).toNat ≠ 2047 := fun h => hnot (BitVec.eq_of_toNat_eq h)
        omega
      have hpos : (unpackExponent b).toNat ≠ 0 := fun h => hnormal (BitVec.eq_of_toNat_eq h)
      have hfull : (1#1 ++ unpackMantissa b).toNat = 2 ^ 52 + (unpackMantissa b).toNat := by
        rw [BitVec.toNat_append, ← Nat.shiftLeft_add_eq_or_of_lt hmant]
        rfl
      have hlog : (2 ^ 52 + (unpackMantissa b).toNat).log2 = 52 := by
        rw [Nat.log2_eq_iff (by omega)]
        omega
      have hbias : (((unpackExponent b).toNat : Int)
          - (Format.binary64.exponentBias + Format.binary64.mantissaBitsWithoutImplicit)
          + Format.binary64.exponentBias + Format.binary64.mantissaBitsWithoutImplicit).toNat
          = (unpackExponent b).toNat := by omega
      rw [UnpackedFloat.pack, hbias, if_neg, if_pos, BitVec.ofNat_toNat, BitVec.setWidth_eq]
      · convert hback using 2
        refine BitVec.eq_of_toNat_eq ?_
        rw [hfull, BitVec.toNat_ofNat]
        -- only the leading one is cut off
        show (2 ^ 52 + (unpackMantissa b).toNat) % 2 ^ 52 = (unpackMantissa b).toNat
        omega
      · rw [hfull, hlog]
        rfl
      · simp only [Nat.reducePow]
        omega

/-- A float is what its bits say. -/
theorem ofBits_toBits (x : Float) : Float.ofBits x.toBits = x := by
  obtain ⟨⟨bits, valid⟩⟩ := x
  have h := pack_unpack valid
  simp only [Float.ofBits, Float.toBits, Float.Model.ofBits, Float.Model.pack]
  congr 2
  exact congrArg UInt64.ofBitVec h

/-- There is only one float that is not a number. -/
theorem eq_nan {x : Float} (hexp : x.toBits.toNat % 2 ^ 63 / 2 ^ 52 = 2047)
    (hmant : x.toBits.toNat % 2 ^ 52 ≠ 0) : x = nan := by
  obtain ⟨⟨bits, valid⟩⟩ := x
  have hall : @unpackExponent .binary64 bits.toBitVec = BitVec.allOnes 11 := by
    refine BitVec.eq_of_toNat_eq ?_
    rw [toNat_unpackExponent]
    exact hexp
  have hsome : @unpackMantissa .binary64 bits.toBitVec ≠ 0#52 := by
    intro hzero
    refine hmant ?_
    have hnat := congrArg BitVec.toNat hzero
    rw [toNat_unpackMantissa] at hnat
    exact hnat
  have hbits := valid.eq_packedNaN hall hsome
  have hnan : nan.toBits.toBitVec = packedNaN .binary64 := by decide
  rw [← ofBits_toBits nan, ← ofBits_toBits ⟨⟨bits, valid⟩⟩]
  congr 1
  exact UInt64.toBitVec_inj.1 (hbits.trans hnan.symm)

/-- A float is its sign and the bits below it. -/
theorem ofMagnitude_toBits (x : Float) :
    ofMagnitude (signBit x) (x.toBits.toNat % 2 ^ 63) = x := by
  have hlt : x.toBits.toNat < 2 ^ 64 := x.toBits.toNat_lt
  have hbits : (if signBit x then UInt64.ofNat (2 ^ 63 + x.toBits.toNat % 2 ^ 63)
      else UInt64.ofNat (x.toBits.toNat % 2 ^ 63)) = x.toBits := by
    unfold signBit
    split
    · next hneg =>
      rw [decide_eq_true_eq] at hneg
      rw [show 2 ^ 63 + x.toBits.toNat % 2 ^ 63 = x.toBits.toNat by omega, UInt64.ofNat_toNat]
    · next hneg =>
      rw [decide_eq_true_eq] at hneg
      rw [show x.toBits.toNat % 2 ^ 63 = x.toBits.toNat by omega, UInt64.ofNat_toNat]
  rw [ofMagnitude, hbits, ofBits_toBits]

-- ============================================== floats as exact numbers

/-- The significands and exponents of the positive finite floats: those
above the least exponent have all 53 bits. -/
structure Regular (m : ℕ) (q : ℤ) : Prop where
  positive : 0 < m
  narrow : m < 2 ^ 53
  least : -1074 ≤ q
  most : q ≤ 971
  full : -1074 < q → 2 ^ 52 ≤ m

/-- The bits below the sign of `m · 2^q`. -/
def dyadicBits (m : ℕ) (q : ℤ) : ℕ :=
  (q + 1074).toNat * 2 ^ 52 + m

/-- What a float is, by its view. -/
theorem eq_of_view (x : Float) :
    match view x with
    | .nan => x = nan
    | .infinite negative => x = ofMagnitude negative infinityBits
    | .finite negative m q =>
      x = ofMagnitude negative (dyadicBits m q) ∧ (m = 0 ∧ q = -1074 ∨ Regular m q) := by
  have hx := ofMagnitude_toBits x
  have hlt : x.toBits.toNat % 2 ^ 63 < 2 ^ 63 := Nat.mod_lt _ (by norm_num)
  unfold view viewBits
  dsimp only
  -- the exponent field is all ones for what is not finite and zero for the subnormal floats
  by_cases hall : x.toBits.toNat % 2 ^ 63 / 2 ^ 52 = 2047
  · rw [if_pos (by simpa using hall)]
    by_cases hzero : x.toBits.toNat % 2 ^ 63 % 2 ^ 52 = 0
    · rw [if_pos (by simpa using hzero)]
      dsimp only
      have hbits : x.toBits.toNat % 2 ^ 63 = infinityBits := by
        unfold infinityBits
        omega
      rw [← hbits]
      exact hx.symm
    · rw [if_neg (by simpa using hzero)]
      dsimp only
      exact eq_nan hall (by omega)
  · rw [if_neg (by simpa using hall)]
    by_cases hsub : x.toBits.toNat % 2 ^ 63 / 2 ^ 52 = 0
    · rw [if_pos (by simpa using hsub)]
      dsimp only
      have hbits : dyadicBits (x.toBits.toNat % 2 ^ 63 % 2 ^ 52) (-1074)
          = x.toBits.toNat % 2 ^ 63 := by
        unfold dyadicBits
        omega
      rw [hbits]
      refine ⟨hx.symm, ?_⟩
      rcases Nat.eq_zero_or_pos (x.toBits.toNat % 2 ^ 63 % 2 ^ 52) with hm | hm
      · exact .inl ⟨hm, rfl⟩
      · exact .inr ⟨hm, by omega, by omega, by omega, by omega⟩
    · rw [if_neg (by simpa using hsub)]
      dsimp only
      have hbits : dyadicBits (2 ^ 52 + x.toBits.toNat % 2 ^ 63 % 2 ^ 52)
          (((x.toBits.toNat % 2 ^ 63 / 2 ^ 52 : ℕ) : ℤ) - 1075)
          = x.toBits.toNat % 2 ^ 63 := by
        unfold dyadicBits
        omega
      rw [hbits]
      exact ⟨hx.symm, .inr ⟨by omega, by omega, by omega, by omega, by omega⟩⟩

-- ============================================== rounding a quotient

theorem zpow_toNat (b : ℚ) {e : ℤ} (he : 0 ≤ e) : b ^ e = b ^ e.toNat := by
  rw [← zpow_natCast, Int.toNat_of_nonneg he]

theorem zpow_neg_toNat (b : ℚ) {e : ℤ} (he : ¬0 ≤ e) : b ^ e = (b ^ (-e).toNat)⁻¹ := by
  rw [← zpow_toNat b (by omega : 0 ≤ -e), zpow_neg, inv_inv]

/-- Comparing a ratio with a power of `b`, in natural numbers. -/
theorem div_lt_zpow_iff {b n d : ℕ} (hb : 0 < b) (hd : 0 < d) (e : ℤ) :
    (n : ℚ) / d < (b : ℚ) ^ e
      ↔ if 0 ≤ e then n < d * b ^ e.toNat else n * b ^ (-e).toNat < d := by
  have hd' : (0 : ℚ) < d := by exact_mod_cast hd
  split
  · next he =>
    rw [zpow_toNat _ he, div_lt_iff₀ hd', mul_comm]
    exact_mod_cast Iff.rfl
  · next he =>
    have hp : (0 : ℚ) < (b : ℚ) ^ (-e).toNat := by positivity
    rw [zpow_neg_toNat _ he, div_lt_iff₀ hd', inv_mul_eq_div, lt_div_iff₀ hp]
    exact_mod_cast Iff.rfl

/-- The logarithm is the last power of two below. -/
theorem floorLog_bounds {n d : ℕ} (hn : 0 < n) (hd : 0 < d) :
    (2 : ℚ) ^ floorLog n d ≤ n / d ∧ (n : ℚ) / d < 2 ^ (floorLog n d + 1) := by
  have hd' : (0 : ℚ) < d := by exact_mod_cast hd
  have hn1 : (2 : ℚ) ^ (n.log2 : ℤ) ≤ n := by
    rw [zpow_natCast]
    exact_mod_cast Nat.log2_self_le (by omega)
  have hn2 : (n : ℚ) < 2 ^ ((n.log2 : ℤ) + 1) := by
    exact_mod_cast Nat.lt_log2_self (n := n)
  have hd1 : (2 : ℚ) ^ (d.log2 : ℤ) ≤ d := by
    rw [zpow_natCast]
    exact_mod_cast Nat.log2_self_le (by omega)
  have hd2 : (d : ℚ) < 2 ^ ((d.log2 : ℤ) + 1) := by
    exact_mod_cast Nat.lt_log2_self (n := d)
  -- the difference of the logarithms is right or one too large, as the comparison finds out
  have hupper : (n : ℚ) / d < 2 ^ ((n.log2 : ℤ) - d.log2 + 1) := by
    rw [div_lt_iff₀ hd']
    calc (n : ℚ) < 2 ^ ((n.log2 : ℤ) + 1) := hn2
      _ = 2 ^ ((n.log2 : ℤ) - d.log2 + 1) * 2 ^ (d.log2 : ℤ) := by
        rw [← zpow_add₀ two_ne_zero]
        congr 1
        omega
      _ ≤ 2 ^ ((n.log2 : ℤ) - d.log2 + 1) * d := by gcongr
  have hlower : (2 : ℚ) ^ ((n.log2 : ℤ) - d.log2 - 1) ≤ n / d := by
    rw [le_div_iff₀ hd']
    calc (2 : ℚ) ^ ((n.log2 : ℤ) - d.log2 - 1) * d
        ≤ 2 ^ ((n.log2 : ℤ) - d.log2 - 1) * 2 ^ ((d.log2 : ℤ) + 1) := by gcongr
      _ = 2 ^ (n.log2 : ℤ) := by
        rw [← zpow_add₀ two_ne_zero]
        congr 1
        omega
      _ ≤ n := hn1
  have hiff := div_lt_zpow_iff (b := 2) (n := n) two_pos hd ((n.log2 : ℤ) - d.log2)
  unfold floorLog
  dsimp only
  by_cases hbelow : (n : ℚ) / d < 2 ^ ((n.log2 : ℤ) - d.log2)
  · rw [if_pos (hiff.1 (by exact_mod_cast hbelow)), sub_add_cancel]
    exact ⟨hlower, hbelow⟩
  · rw [if_neg fun h => hbelow (by exact_mod_cast hiff.2 h)]
    exact ⟨not_lt.1 hbelow, hupper⟩

/-- A ratio within half a unit of `r` rounds to `r`; one exactly half a
unit away does so if `r` is even. -/
theorem roundDiv_eq {N D r : ℕ} (hD : 0 < D) (hlo : (r : ℚ) - 1 / 2 ≤ N / D)
    (hhi : (N : ℚ) / D ≤ r + 1 / 2)
    (hodd : r % 2 = 1 → (r : ℚ) - 1 / 2 < N / D ∧ (N : ℚ) / D < r + 1 / 2) :
    roundDiv N D = r := by
  have hD' : (0 : ℚ) < D := by exact_mod_cast hD
  rw [le_div_iff₀ hD'] at hlo
  rw [div_le_iff₀ hD'] at hhi
  rw [lt_div_iff₀ hD', div_lt_iff₀ hD'] at hodd
  have hlo' : 2 * (r * D) ≤ 2 * N + D := by
    have : (2 : ℚ) * (r * D) ≤ 2 * N + D := by linarith
    exact_mod_cast this
  have hhi' : 2 * N ≤ 2 * (r * D) + D := by
    have : (2 : ℚ) * N ≤ 2 * (r * D) + D := by linarith
    exact_mod_cast this
  have hodd' : r % 2 = 1 → 2 * (r * D) ≠ 2 * N + D ∧ 2 * N ≠ 2 * (r * D) + D := by
    intro h
    obtain ⟨h1, h2⟩ := hodd h
    refine ⟨fun heq => ?_, fun heq => ?_⟩
    · have : (2 : ℚ) * (r * D) = 2 * N + D := by exact_mod_cast heq
      linarith
    · have : (2 : ℚ) * N = 2 * (r * D) + D := by exact_mod_cast heq
      linarith
  have hsplit := Nat.div_add_mod N D
  have hrem := Nat.mod_lt N hD
  -- the quotient is `r` or the number below it
  have hcases : r = N / D ∨ r = N / D + 1 := by
    rcases Nat.lt_trichotomy r (N / D) with h | h | h
    · exfalso
      have : (r + 1) * D ≤ N / D * D := Nat.mul_le_mul_right D h
      have : N / D * D = D * (N / D) := Nat.mul_comm ..
      have : (r + 1) * D = r * D + D := by ring
      omega
    · exact .inl h
    · right
      by_contra hne
      have : (N / D + 2) * D ≤ r * D := Nat.mul_le_mul_right D (by omega)
      have : (N / D + 2) * D = D * (N / D) + 2 * D := by ring
      omega
  unfold roundDiv
  dsimp only
  rcases hcases with rfl | hr
  · have hcomm : N / D * D = D * (N / D) := Nat.mul_comm ..
    rw [hcomm] at hhi' hodd'
    split
    · rfl
    · rw [if_neg (by omega), if_pos]
      rw [beq_iff_eq]
      by_contra h
      have := hodd' (by omega)
      omega
  · have hcomm : r * D = D * (N / D) + D := by rw [hr]; ring
    rw [hcomm] at hlo' hodd'
    rw [if_neg (by omega)]
    split
    · exact hr.symm
    · rw [if_neg]
      · exact hr.symm
      · rw [beq_iff_eq]
        intro h
        have := hodd' (by omega)
        omega

-- ============================================== the interval of a float

/-- How far below `m · 2^q`, in steps of `2^q`, the reals still round to
it. -/
def gapBelow (m : ℕ) (q : ℤ) : ℚ :=
  if m = 2 ^ 52 ∧ -1074 < q then 1 / 4 else 1 / 2

/-- The rational `x` is one that rounds to `m · 2^q`. -/
structure Nearest (m : ℕ) (q : ℤ) (x : ℚ) : Prop where
  lower : (m - gapBelow m q) * 2 ^ q ≤ x
  upper : x ≤ (m + 1 / 2) * 2 ^ q
  inner : m % 2 = 1 → (m - gapBelow m q) * 2 ^ q < x ∧ x < (m + 1 / 2) * 2 ^ q

/-- The gap below is no larger than the one above. -/
theorem gapBelow_le (m : ℕ) (q : ℤ) : gapBelow m q ≤ 1 / 2 := by
  unfold gapBelow
  split <;> norm_num

/-- What is nearest to a positive float is positive. -/
theorem Nearest.positive {m : ℕ} {q : ℤ} {x : ℚ} (hm : 0 < m) (hx : Nearest m q x) :
    0 < x := by
  have hgap := gapBelow_le m q
  have hm' : (1 : ℚ) ≤ m := by exact_mod_cast hm
  have hu : (0 : ℚ) < 2 ^ q := by positivity
  have : 0 < (m - gapBelow m q) * 2 ^ q := mul_pos (by linarith) hu
  exact this.trans_le hx.lower

/-- Strictly between the ends the parity of the significand is no
matter. -/
theorem Nearest.of_lt {m : ℕ} {q : ℤ} {x : ℚ} (hlo : (m - gapBelow m q) * 2 ^ q < x)
    (hhi : x < (m + 1 / 2) * 2 ^ q) : Nearest m q x :=
  ⟨hlo.le, hhi.le, fun _ => ⟨hlo, hhi⟩⟩

/-- Rounding in units of `2^q`, for either sign of `q`. -/
theorem roundScaled_eq {n d r : ℕ} (hd : 0 < d) (q : ℤ)
    (hlo : ((r : ℚ) - 1 / 2) * 2 ^ q ≤ n / d)
    (hhi : (n : ℚ) / d ≤ (r + 1 / 2) * 2 ^ q)
    (hodd : r % 2 = 1 →
      ((r : ℚ) - 1 / 2) * 2 ^ q < n / d ∧ (n : ℚ) / d < (r + 1 / 2) * 2 ^ q) :
    (if 0 ≤ q then roundDiv n (d * 2 ^ q.toNat) else roundDiv (n * 2 ^ (-q).toNat) d) = r := by
  have hu : (0 : ℚ) < 2 ^ q := by positivity
  rw [← le_div_iff₀ hu] at hlo
  rw [← div_le_iff₀ hu] at hhi
  rw [← lt_div_iff₀ hu, ← div_lt_iff₀ hu] at hodd
  split
  · next he =>
    have hsame : (n : ℚ) / d / 2 ^ q = n / (d * 2 ^ q.toNat : ℕ) := by
      rw [zpow_toNat 2 he, div_div]
      push_cast
      rfl
    rw [hsame] at hlo hhi hodd
    exact roundDiv_eq (by positivity) hlo hhi hodd
  · next he =>
    have hsame : (n : ℚ) / d / 2 ^ q = (n * 2 ^ (-q).toNat : ℕ) / d := by
      rw [zpow_neg_toNat 2 he, div_inv_eq_mul, div_mul_eq_mul_div]
      push_cast
      rfl
    rw [hsame] at hlo hhi hodd
    exact roundDiv_eq hd hlo hhi hodd

/-- A ratio in the interval of a float rounds to that float. -/
theorem ratioBits_eq {n d m : ℕ} {q : ℤ} (hd : 0 < d) (hreg : Regular m q)
    (hx : Nearest m q (n / d)) : ratioBits n d = dyadicBits m q := by
  obtain ⟨hpos, hnarrow, hleast, hmost, hfull⟩ := hreg
  have hxpos := hx.positive hpos
  have hn : 0 < n := by
    rcases Nat.eq_zero_or_pos n with rfl | h
    · simp at hxpos
    · exact h
  obtain ⟨hge, hlt⟩ := floorLog_bounds hn hd
  have hu : (0 : ℚ) < 2 ^ q := by positivity
  have hgap := gapBelow_le m q
  have hnarrow' : (m : ℚ) + 1 ≤ 2 ^ 53 := by exact_mod_cast hnarrow
  -- the exponent that rounding takes is at most that of the float
  have hle : floorLog n d - 52 ≤ q := by
    by_contra hgt
    have h1 : (2 : ℚ) ^ (q + 53) ≤ 2 ^ floorLog n d :=
      zpow_le_zpow_right₀ one_le_two (by omega)
    have h2 : (2 : ℚ) ^ (q + 53) = 2 ^ 53 * 2 ^ q := by
      rw [zpow_add₀ two_ne_zero, mul_comm]
      rfl
    have h3 : ((m : ℚ) + 1 / 2) * 2 ^ q < 2 ^ 53 * 2 ^ q :=
      mul_lt_mul_of_pos_right (by linarith) hu
    linarith [hx.upper]
  unfold ratioBits
  rw [if_neg (by simpa using hn.ne')]
  dsimp only
  by_cases hsame : max (floorLog n d - 52) (-1074) = q
  · have hround := roundScaled_eq (n := n) (r := m) hd q
      ((mul_le_mul_of_nonneg_right (by linarith) hu.le).trans hx.lower) hx.upper fun h =>
        ⟨(mul_le_mul_of_nonneg_right (by linarith) hu.le).trans_lt (hx.inner h).1,
          (hx.inner h).2⟩
    rw [hsame, hround]
    refine Nat.min_eq_left ?_
    unfold infinityBits
    omega
  · -- below a power of two the lower float gap lies in the binade before
    have hq : -1074 < q := by omega
    have hm := hfull hq
    have hm' : (2 : ℚ) ^ 52 ≤ m := by exact_mod_cast hm
    have hbelow : (n : ℚ) / d < 2 ^ 52 * 2 ^ q := by
      have h1 : (2 : ℚ) ^ (floorLog n d + 1) ≤ 2 ^ (q + 52) :=
        zpow_le_zpow_right₀ one_le_two (by omega)
      have h2 : (2 : ℚ) ^ (q + 52) = 2 ^ 52 * 2 ^ q := by
        rw [zpow_add₀ two_ne_zero, mul_comm]
        rfl
      linarith
    have hmeq : m = 2 ^ 52 := by
      have h1 : ((m : ℚ) - gapBelow m q) * 2 ^ q < 2 ^ 52 * 2 ^ q := hx.lower.trans_lt hbelow
      have h2 : (m : ℚ) - gapBelow m q < 2 ^ 52 := lt_of_mul_lt_mul_right h1 hu.le
      have h3 : (m : ℚ) < (2 ^ 52 + 1 : ℕ) := by push_cast; linarith
      have h4 : m < 2 ^ 52 + 1 := by exact_mod_cast h3
      omega
    have hgapeq : gapBelow m q = 1 / 4 := if_pos ⟨hmeq, hq⟩
    have hhalf : (2 : ℚ) ^ q = 2 * 2 ^ (q - 1) := by
      rw [zpow_sub_one₀ two_ne_zero]
      ring
    have hlow : ((2 ^ 53 : ℕ) - 1 / 2 : ℚ) * 2 ^ (q - 1) ≤ n / d := by
      refine le_trans (le_of_eq ?_) hx.lower
      rw [hgapeq, hmeq, hhalf]
      push_cast
      ring
    have hexp : max (floorLog n d - 52) (-1074) = q - 1 := by
      have h1 : (2 : ℚ) ^ (q + 51) ≤ n / d := by
        refine le_trans ?_ hlow
        rw [show q + 51 = 52 + (q - 1) by omega, zpow_add₀ two_ne_zero]
        gcongr
        norm_num
      have h2 : (2 : ℚ) ^ (q + 51) < 2 ^ (floorLog n d + 1) := h1.trans_lt hlt
      have h3 := (zpow_lt_zpow_iff_right₀ (one_lt_two : (1 : ℚ) < 2)).1 h2
      omega
    have hround := roundScaled_eq (n := n) (r := 2 ^ 53) hd (q - 1) hlow
      (by
        refine hbelow.le.trans ?_
        rw [hhalf]
        push_cast
        nlinarith [hu])
      (fun h => by norm_num at h)
    rw [hexp, hround, hmeq]
    unfold infinityBits dyadicBits
    omega

end LispShell.Binary64
