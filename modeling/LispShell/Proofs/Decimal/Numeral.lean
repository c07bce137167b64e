/-
What the readers of numbers make of digits, points and powers of ten.

The first part is about digits: a row of them spells a number
(`nat?_digits`), and a row with anything else in it spells none
(`natFrom_eq_none`). The second part is about decimal floats: the digits
before and after the point are read as one number, shifted by the places
after the point and by the power of ten (`decimalFloat?_fixed`,
`decimalFloat?_powered`). The third says which float is read: the one in
whose interval the decimal lies (`ofDecimal_eq`). The shortcut for extreme
magnitudes is never taken there, because a positive float and all that
rounds to it lies between `10^-400` and `10^400`.
-/
import LispShell.Decimal.Numeral
import LispShell.Proofs.Binary64

namespace LispShell.Decimal

open Binary64

-- ============================================== digits

/-- A digit counts as much as it is after zero. -/
theorem digit?_of_isDigit {c : Char} (h : c.isDigit = true) :
    digit? c = some (c.toNat - '0'.toNat) := by
  unfold digit?
  rw [if_pos]
  simpa [Char.isDigit, Char.le_def] using h

theorem digit?_of_not_isDigit {c : Char} (h : c.isDigit = false) : digit? c = none := by
  unfold digit?
  rw [if_neg]
  simpa [Char.isDigit, Char.le_def] using h

/-- Digits spell the number that core's digit notation gives them. -/
theorem natFrom_digits {cs : List Char} (h : ∀ c ∈ cs, c.isDigit = true) (n : ℕ) :
    natFrom n cs = some (Nat.ofDigitChars 10 cs n) := by
  induction cs generalizing n with
  | nil => simp [natFrom]
  | cons c cs ih =>
    rw [natFrom, digit?_of_isDigit (h c List.mem_cons_self)]
    dsimp only
    rw [ih fun d hd => h d (List.mem_cons_of_mem c hd), Nat.ofDigitChars_cons]

/-- Digits are read as their number. -/
theorem nat?_digits {cs : List Char} (hne : cs ≠ []) (h : ∀ c ∈ cs, c.isDigit = true) :
    nat? cs = some (Nat.ofDigitChars 10 cs 0) := by
  cases cs with
  | nil => exact absurd rfl hne
  | cons c cs => exact natFrom_digits h 0

/-- A row with something else among its digits spells no number. -/
theorem natFrom_eq_none {cs : List Char} {c : Char} (hc : c ∈ cs) (h : c.isDigit = false)
    (n : ℕ) : natFrom n cs = none := by
  induction cs generalizing n with
  | nil => cases hc
  | cons d cs ih =>
    rw [natFrom]
    rcases List.mem_cons.1 hc with rfl | hc
    · rw [digit?_of_not_isDigit h]
    · cases digit? d with
      | none => rfl
      | some k => exact ih hc _

/-- A number is written in digits. -/
theorem isDigit_toDigits {n : ℕ} {c : Char} (h : c ∈ Nat.toDigits 10 n) : c.isDigit = true :=
  Nat.isDigit_of_mem_toDigits (by decide) (by decide) h

-- ============================================== decimal floats

/-- What has been read after more digits. -/
def Significand.after (s : Significand) (cs : List Char) : Significand where
  value := Nat.ofDigitChars 10 cs s.value
  count := s.count + cs.length
  point := s.point
  places := if s.point then s.places + cs.length else s.places

/-- Digits are taken one after the other. -/
theorem significand_digits {cs : List Char} (h : ∀ c ∈ cs, c.isDigit = true) (s : Significand)
    (rest : List Char) :
    significand 10 digit? s (cs ++ rest) = significand 10 digit? (s.after cs) rest := by
  induction cs generalizing s with
  | nil =>
    have hsame : s.after [] = s := by
      unfold Significand.after
      cases s
      simp
    rw [hsame, List.nil_append]
  | cons c cs ih =>
    have hc := h c List.mem_cons_self
    have hunderscore : c ≠ '_' := by
      rintro rfl
      cases hc
    have hpoint : c ≠ '.' := by
      rintro rfl
      cases hc
    rw [List.cons_append, significand, if_neg (by simpa using hunderscore),
      if_neg (by simpa using hpoint), digit?_of_isDigit hc]
    dsimp only
    rw [ih fun d hd => h d (List.mem_cons_of_mem c hd)]
    congr 1
    unfold Significand.after
    rw [Nat.ofDigitChars_cons, Nat.mul_comm 10]
    cases s.point with
    | false => simp [Nat.add_comm, Nat.add_left_comm]
    | true => simp [Nat.add_comm, Nat.add_left_comm]

/-- The point and the digits after it, or nothing. -/
def pointPart : Option (List Char) → List Char
  | none => []
  | some fraction => '.' :: fraction

/-- Digits, a point and more digits are read up to a rest that stops the
reading. -/
theorem significand_spelled {whole : List Char} {fraction : Option (List Char)}
    (hwhole : ∀ c ∈ whole, c.isDigit = true)
    (hfraction : ∀ c ∈ fraction.getD [], c.isDigit = true)
    {rest : List Char} (hrest : ∀ s : Significand, significand 10 digit? s rest = (s, rest)) :
    significand 10 digit? {} (whole ++ (pointPart fraction ++ rest))
      = (⟨Nat.ofDigitChars 10 (whole ++ fraction.getD []) 0, (whole ++ fraction.getD []).length,
          fraction.isSome, (fraction.getD []).length⟩, rest) := by
  rw [significand_digits hwhole]
  cases fraction with
  | none =>
    simp only [pointPart, List.nil_append, hrest, Option.getD_none, List.append_nil,
      Option.isSome_none, List.length_nil]
    simp [Significand.after]
  | some fraction =>
    rw [Option.getD_some] at hfraction
    rw [pointPart, List.cons_append, significand, if_neg (by decide), if_pos (by decide),
      if_neg (by simp [Significand.after]), significand_digits hfraction, hrest,
      Option.getD_some, Nat.ofDigitChars_append]
    simp [Significand.after]

theorem significand_nil (s : Significand) : significand 10 digit? s [] = (s, []) := rfl

theorem significand_power (s : Significand) (rest : List Char) :
    significand 10 digit? s ('e' :: rest) = (s, 'e' :: rest) := rfl

/-- A sign and digits are an exponent. -/
theorem exponent?_digits {cs : List Char} (hne : cs ≠ []) (h : ∀ c ∈ cs, c.isDigit = true)
    (negative : Bool) :
    exponent? ((if negative then '-' else '+') :: cs)
      = some (if negative then -(Nat.ofDigitChars 10 cs 0 : ℤ)
          else Nat.ofDigitChars 10 cs 0) := by
  have hsigned : signed ((if negative then '-' else '+') :: cs) = (negative, cs) := by
    cases negative <;> rfl
  have hfilter : cs.filter (· != '_') = cs := by
    refine List.filter_eq_self.2 fun c hc => ?_
    have hdigit := h c hc
    rw [bne_iff_ne]
    rintro rfl
    cases hdigit
  cases cs with
  | nil => exact absurd rfl hne
  | cons c cs =>
    rw [exponent?, hsigned]
    dsimp only
    rw [digit?_of_isDigit (h c List.mem_cons_self), hfilter, nat?_digits hne h]
    rfl

/-- A float with a point. -/
theorem decimalFloat?_fixed {whole fraction : List Char} (hne : whole ≠ [])
    (hwhole : ∀ c ∈ whole, c.isDigit = true) (hfraction : ∀ c ∈ fraction, c.isDigit = true)
    (negative : Bool) :
    decimalFloat? negative (whole ++ '.' :: fraction)
      = some (ofDecimal negative (Nat.ofDigitChars 10 (whole ++ fraction) 0)
          (-(fraction.length : ℤ))) := by
  have h : significand 10 digit? {} (whole ++ '.' :: fraction)
      = (⟨Nat.ofDigitChars 10 (whole ++ fraction) 0, (whole ++ fraction).length, true,
          fraction.length⟩, []) := by
    simpa [pointPart] using @significand_spelled whole (some fraction) hwhole hfraction []
      significand_nil
  rw [decimalFloat?, h]
  dsimp only
  rw [if_neg (by simpa using fun hnil => absurd hnil hne)]

/-- A float with a power of ten, with or without a point. -/
theorem decimalFloat?_powered {whole : List Char} {fraction : Option (List Char)}
    {power : List Char} (hne : whole ≠ [])
    (hwhole : ∀ c ∈ whole, c.isDigit = true)
    (hfraction : ∀ c ∈ fraction.getD [], c.isDigit = true)
    (hpower : power ≠ []) (hdigits : ∀ c ∈ power, c.isDigit = true) (negative down : Bool) :
    decimalFloat? negative
        (whole ++ (pointPart fraction ++ 'e' :: (if down then '-' else '+') :: power))
      = some (ofDecimal negative (Nat.ofDigitChars 10 (whole ++ fraction.getD []) 0)
          ((if down then -(Nat.ofDigitChars 10 power 0 : ℤ) else Nat.ofDigitChars 10 power 0)
            - ((fraction.getD []).length : ℤ))) := by
  rw [decimalFloat?, significand_spelled hwhole hfraction fun s => significand_power s _]
  dsimp only
  rw [if_neg (by simpa using fun h => absurd h hne), if_neg (by decide),
    exponent?_digits hpower hdigits]
  rfl

-- ============================================== the nearest float of a decimal

/-- Numbers by how many digits they have. -/
theorem length_toDigits_bounds {n : ℕ} (hn : 0 < n) :
    (10 : ℚ) ^ (((Nat.toDigits 10 n).length : ℤ) - 1) ≤ n
      ∧ (n : ℚ) < 10 ^ ((Nat.toDigits 10 n).length : ℤ) := by
  have hpos : 0 < (Nat.toDigits 10 n).length := List.length_pos_iff.2 Nat.toDigits_ne_nil
  refine ⟨?_, ?_⟩
  · obtain ⟨k, hk⟩ : ∃ k, (Nat.toDigits 10 n).length = k + 1 :=
      ⟨_, (Nat.sub_add_cancel hpos).symm⟩
    rw [hk, Nat.cast_add_one, add_sub_cancel_right, zpow_natCast]
    have hle : 10 ^ k ≤ n := by
      by_contra hlt
      rcases Nat.eq_zero_or_pos k with rfl | hkpos
      · omega
      · have := (Nat.length_toDigits_le_iff (b := 10) (by decide) hkpos).2 (not_le.1 hlt)
        omega
    exact_mod_cast hle
  · rw [zpow_natCast]
    exact_mod_cast (Nat.length_toDigits_le_iff (b := 10) (by decide) hpos).1 le_rfl

/-- What rounds to a positive float lies between `10^-400` and
`10^400`. -/
theorem nearest_bounds {m : ℕ} {q : ℤ} {x : ℚ} (hreg : Regular m q) (hx : Nearest m q x) :
    (10 : ℚ) ^ (-400 : ℤ) ≤ x ∧ x < 10 ^ (400 : ℤ) := by
  have hu : (0 : ℚ) < 2 ^ q := by positivity
  have hm1 : (1 : ℚ) ≤ m := by exact_mod_cast hreg.positive
  have hm2 : (m : ℚ) + 1 ≤ 2 ^ 53 := by exact_mod_cast hreg.narrow
  have hpowers : (2 : ℚ) ^ (1200 : ℤ) ≤ 10 ^ (400 : ℤ) := by
    rw [show (1200 : ℤ) = 3 * 400 by norm_num, zpow_mul]
    exact zpow_le_zpow_left₀ (by norm_num) (by norm_num) (by norm_num)
  refine ⟨?_, ?_⟩
  · calc (10 : ℚ) ^ (-400 : ℤ) ≤ 2 ^ (-1200 : ℤ) := by
          rw [zpow_neg, zpow_neg]
          exact inv_anti₀ (by positivity) hpowers
      _ ≤ 2 ^ (-1 + q) := zpow_le_zpow_right₀ one_le_two (by have := hreg.least; omega)
      _ = 1 / 2 * 2 ^ q := by
          rw [zpow_add₀ two_ne_zero]
          norm_num
      _ ≤ (m - gapBelow m q) * 2 ^ q :=
          mul_le_mul_of_nonneg_right (by linarith [gapBelow_le m q]) hu.le
      _ ≤ x := hx.lower
  · calc x ≤ (m + 1 / 2) * 2 ^ q := hx.upper
      _ < 2 ^ (53 : ℤ) * 2 ^ q :=
          mul_lt_mul_of_pos_right (lt_of_lt_of_le (by linarith) hm2) hu
      _ = 2 ^ (53 + q) := (zpow_add₀ two_ne_zero _ _).symm
      _ ≤ 2 ^ (1200 : ℤ) := zpow_le_zpow_right₀ one_le_two (by have := hreg.most; omega)
      _ ≤ 10 ^ (400 : ℤ) := hpowers

/-- A decimal in the interval of a float reads as that float. -/
theorem ofDecimal_eq {m n : ℕ} {q e : ℤ} (hreg : Regular m q) (hn : 0 < n)
    (hx : Nearest m q (n * 10 ^ e)) (negative : Bool) :
    ofDecimal negative n e = ofMagnitude negative (dyadicBits m q) := by
  obtain ⟨hfew, hmany⟩ := length_toDigits_bounds hn
  obtain ⟨hlow, hhigh⟩ := nearest_bounds hreg hx
  have ht : (0 : ℚ) < 10 ^ e := by positivity
  have hten : (1 : ℚ) < 10 := by norm_num
  -- so neither shortcut for extreme magnitudes is taken
  have hsmall : ¬400 < e + ((Nat.toDigits 10 n).length : ℤ) := by
    have hlt : (10 : ℚ) ^ (((Nat.toDigits 10 n).length : ℤ) - 1 + e) < 10 ^ (400 : ℤ) := by
      rw [zpow_add₀ (by norm_num)]
      exact (mul_le_mul_of_nonneg_right hfew ht.le).trans_lt hhigh
    have := (zpow_lt_zpow_iff_right₀ hten).1 hlt
    omega
  have hlarge : ¬e + ((Nat.toDigits 10 n).length : ℤ) < -400 := by
    have hlt : (10 : ℚ) ^ (-400 : ℤ) < 10 ^ (((Nat.toDigits 10 n).length : ℤ) + e) := by
      rw [zpow_add₀ (by norm_num)]
      exact hlow.trans_lt (mul_lt_mul_of_pos_right hmany ht)
    have := (zpow_lt_zpow_iff_right₀ hten).1 hlt
    omega
  unfold ofDecimal
  rw [if_neg (by simpa using hn.ne')]
  dsimp only
  rw [if_neg hsmall, if_neg hlarge]
  split
  · next he =>
    rw [zpow_toNat 10 he] at hx
    rw [ofRatio, ratioBits_eq one_pos hreg]
    push_cast
    rwa [div_one]
  · next he =>
    rw [zpow_neg_toNat 10 he] at hx
    rw [ofRatio, ratioBits_eq (by positivity) hreg]
    push_cast
    rwa [div_eq_mul_inv]

end LispShell.Decimal
