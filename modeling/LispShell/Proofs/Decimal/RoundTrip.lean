/-
Numbers are written so that they read back as themselves.

An integer is written as an optional minus and its digits, which
`int?_renderInt` reads back. A finite float is written as an optional
minus and the digits of its shortest decimal, with a point or a power of
ten among them. Two facts about that text are enough: it is no integer
(`Unsigned`), and it reads as the float nearest to the decimal it was made
from (`Spells`). Both are shown for the two layouts, the one with the
point in place (`spells_pointed`) and the one with a power of ten
(`spells_powered`), each in one statement for all digits and exponents.

The decimal rounds to the float it belongs to, so the float is read back:
`float?_renderFloat`, for every float, the infinities, the signed zeros
and what is not a number included.
-/
import LispShell.Decimal.Layout
import LispShell.Proofs.Decimal.Numeral
import LispShell.Proofs.Decimal.Shortest

namespace LispShell.Decimal

open Binary64

-- ============================================== the text of a decimal

/-- The bytes that the text of a finite float is made of. -/
def numeric (c : Char) : Bool :=
  c.isDigit || c == '.' || c == 'e' || c == '+' || c == '-'

theorem numeric_of_isDigit {c : Char} (h : c.isDigit = true) : numeric c = true := by
  simp [numeric, h]

theorem isDigit_replicate_zero {k : ℕ} {c : Char} (h : c ∈ List.replicate k '0') :
    c.isDigit = true := by
  rw [List.eq_of_mem_replicate h]
  decide

theorem toList_padded (width n : ℕ) :
    (padded width n).toList
      = List.replicate (width - (Nat.repr n).length) '0' ++ Nat.toDigits 10 n := by
  simp [padded]

/-- Padding with zeros changes neither that they are digits nor their number. -/
theorem padded_digits (width n : ℕ) :
    (padded width n).toList ≠ [] ∧ (∀ c ∈ (padded width n).toList, c.isDigit = true)
      ∧ Nat.ofDigitChars 10 (padded width n).toList 0 = n := by
  rw [toList_padded]
  refine ⟨by simp, fun c hc => ?_, ?_⟩
  · rcases List.mem_append.1 hc with hc | hc
    · exact isDigit_replicate_zero hc
    · exact isDigit_toDigits hc
  · rw [Nat.ofDigitChars_append]
    simp

/-- A text of digits with a point or a power of ten among them, as a
positive float is written: no sign, and no integer. -/
structure Unsigned (cs : List Char) : Prop where
  head : ∃ c rest, cs = c :: rest ∧ c.isDigit = true
  bytes : ∀ c ∈ cs, numeric c = true
  mark : ∃ c ∈ cs, c.isDigit = false

/-- An unsigned text that reads as the float nearest to `x`. -/
structure Spells (cs : List Char) (x : ℚ) : Prop extends Unsigned cs where
  read : ∃ (n : ℕ) (e : ℤ), 0 < n ∧ (n : ℚ) * 10 ^ e = x
    ∧ ∀ negative, decimalFloat? negative cs = some (ofDecimal negative n e)

/-- Zeros at the end are a power of ten. -/
theorem ofDigitChars_append_zeros (cs : List Char) (k : ℕ) :
    Nat.ofDigitChars 10 (cs ++ List.replicate k '0') 0 = Nat.ofDigitChars 10 cs 0 * 10 ^ k := by
  rw [Nat.ofDigitChars_append, Nat.ofDigitChars_replicate_zero, Nat.mul_comm]

/-- Digits with a point. -/
theorem Spells.fixed {whole fraction : List Char} {x : ℚ} (hne : whole ≠ [])
    (hwhole : ∀ c ∈ whole, c.isDigit = true) (hfraction : ∀ c ∈ fraction, c.isDigit = true)
    (hpos : 0 < Nat.ofDigitChars 10 (whole ++ fraction) 0)
    (hx : (Nat.ofDigitChars 10 (whole ++ fraction) 0 : ℚ) * 10 ^ (-(fraction.length : ℤ)) = x) :
    Spells (whole ++ '.' :: fraction) x where
  head := by
    cases whole with
    | nil => exact absurd rfl hne
    | cons c rest => exact ⟨c, _, rfl, hwhole c List.mem_cons_self⟩
  bytes c hc := by
    rcases List.mem_append.1 hc with hc | hc
    · exact numeric_of_isDigit (hwhole c hc)
    · rcases List.mem_cons.1 hc with rfl | hc
      · decide
      · exact numeric_of_isDigit (hfraction c hc)
  mark := ⟨'.', by simp, by decide⟩
  read := ⟨_, _, hpos, hx, decimalFloat?_fixed hne hwhole hfraction⟩

/-- Digits with a power of ten. -/
theorem Spells.powered {whole : List Char} {fraction : Option (List Char)} {power : List Char}
    {x : ℚ} {down : Bool} (hne : whole ≠ [])
    (hwhole : ∀ c ∈ whole, c.isDigit = true)
    (hfraction : ∀ c ∈ fraction.getD [], c.isDigit = true)
    (hpower : power ≠ []) (hdigits : ∀ c ∈ power, c.isDigit = true)
    (hpos : 0 < Nat.ofDigitChars 10 (whole ++ fraction.getD []) 0)
    (hx : (Nat.ofDigitChars 10 (whole ++ fraction.getD []) 0 : ℚ)
      * 10 ^ ((if down then -(Nat.ofDigitChars 10 power 0 : ℤ) else Nat.ofDigitChars 10 power 0)
        - ((fraction.getD []).length : ℤ)) = x) :
    Spells (whole ++ (pointPart fraction ++ 'e' :: (if down then '-' else '+') :: power)) x where
  head := by
    cases whole with
    | nil => exact absurd rfl hne
    | cons c rest => exact ⟨c, _, rfl, hwhole c List.mem_cons_self⟩
  bytes c hc := by
    rcases List.mem_append.1 hc with hc | hc
    · exact numeric_of_isDigit (hwhole c hc)
    rcases List.mem_append.1 hc with hc | hc
    · cases fraction with
      | none => cases hc
      | some fraction =>
        rcases List.mem_cons.1 hc with rfl | hc
        · decide
        · exact numeric_of_isDigit (hfraction c hc)
    rcases List.mem_cons.1 hc with rfl | hc
    · decide
    rcases List.mem_cons.1 hc with rfl | hc
    · cases down <;> decide
    · exact numeric_of_isDigit (hdigits c hc)
  mark := ⟨'e', by simp, by decide⟩
  read := ⟨_, _, hpos, hx, fun negative =>
    decimalFloat?_powered hne hwhole hfraction hpower hdigits negative down⟩

/-- The sign of the power, as characters. -/
theorem toList_powerMark (exponent : ℤ) :
    (if exponent < 0 then "e-" else "e+" : String).toList
      = ['e', if decide (exponent < 0) then '-' else '+'] := by
  by_cases h : exponent < 0 <;> simp [h]

/-- The layout with a power of ten. -/
theorem spells_powered {digits : List Char} (hne : digits ≠ [])
    (hdigits : ∀ c ∈ digits, c.isDigit = true) (hpos : 0 < Nat.ofDigitChars 10 digits 0)
    (exponent : ℤ) (width : ℕ) :
    Spells (powered digits exponent width).toList
      (Nat.ofDigitChars 10 digits 0 * 10 ^ (exponent + 1 - digits.length)) := by
  obtain ⟨hpad, hpadDigits, hpadValue⟩ := padded_digits width exponent.natAbs
  have hsign : (if decide (exponent < 0) then
        -(Nat.ofDigitChars 10 (padded width exponent.natAbs).toList 0 : ℤ)
      else Nat.ofDigitChars 10 (padded width exponent.natAbs).toList 0) = exponent := by
    rw [hpadValue]
    by_cases h : exponent < 0
    · rw [if_pos (by simpa using h)]
      omega
    · rw [if_neg (by simpa using h)]
      omega
  -- a single digit is written without a point
  match digits, hne with
  | [c], _ =>
    have htext : (powered [c] exponent width).toList
        = [c] ++ (pointPart none ++ 'e' :: (if decide (exponent < 0) then '-' else '+')
            :: (padded width exponent.natAbs).toList) := by
      simp only [powered, String.toList_append, toList_powerMark, String.toList_singleton,
        pointPart]
      rfl
    rw [htext]
    refine Spells.powered (by simp) hdigits (by simp) hpad hpadDigits hpos ?_
    rw [hsign]
    simp
  | c :: b :: rest, _ =>
    have htext : (powered (c :: b :: rest) exponent width).toList
        = [c] ++ (pointPart (some (b :: rest)) ++ 'e'
            :: (if decide (exponent < 0) then '-' else '+')
            :: (padded width exponent.natAbs).toList) := by
      simp only [powered, String.toList_append, toList_powerMark, String.toList_singleton,
        String.toList_ofList, pointPart, List.append_assoc]
      rfl
    rw [htext]
    refine Spells.powered (by simp) (fun x hx => ?_) (fun x hx => ?_) hpad hpadDigits hpos ?_
    · rw [List.mem_singleton.1 hx]
      exact hdigits c List.mem_cons_self
    · exact hdigits x (List.mem_cons_of_mem c hx)
    · rw [hsign]
      have hexp : exponent - ((b :: rest).length : ℤ)
          = exponent + 1 - ((c :: b :: rest).length : ℤ) := by
        simp only [List.length_cons]
        omega
      rw [Option.getD_some, hexp]
      rfl

/-- The layout with the point in place: before all digits, after all of
them, or among them. -/
theorem spells_pointed {digits : List Char} (hne : digits ≠ [])
    (hdigits : ∀ c ∈ digits, c.isDigit = true) (hpos : 0 < Nat.ofDigitChars 10 digits 0)
    (place : ℤ) :
    Spells (pointed digits place ".0").toList
      (Nat.ofDigitChars 10 digits 0 * 10 ^ (place - digits.length)) := by
  unfold pointed
  split
  · -- zeros stand between the point and the digits
    next hplace =>
    have hnum : Nat.ofDigitChars 10 (['0'] ++ (List.replicate (-place).toNat '0' ++ digits)) 0
        = Nat.ofDigitChars 10 digits 0 := by
      rw [Nat.ofDigitChars_append, Nat.ofDigitChars_append,
        show Nat.ofDigitChars 10 ['0'] 0 = 0 from rfl, Nat.ofDigitChars_replicate_zero,
        Nat.mul_zero]
    have htext : ("0." ++ String.ofList (List.replicate (-place).toNat '0' ++ digits)).toList
        = ['0'] ++ '.' :: (List.replicate (-place).toNat '0' ++ digits) := by
      simp
    rw [htext]
    refine Spells.fixed (by simp) (by simp) (fun c hc => ?_) (by rwa [hnum]) ?_
    · exact (List.mem_append.1 hc).elim isDigit_replicate_zero (hdigits c)
    · rw [hnum, List.length_append, List.length_replicate]
      congr 2
      omega
  · next hplace =>
    dsimp only
    split
    · -- all digits stand before the point, perhaps with zeros after them
      next hdrop =>
      have hlen : digits.length ≤ place.toNat := List.drop_eq_nil_iff.1 hdrop
      have hnum : Nat.ofDigitChars 10
            ((digits ++ List.replicate (place.toNat - digits.length) '0') ++ ['0']) 0
          = Nat.ofDigitChars 10 digits 0 * 10 ^ (place.toNat - digits.length) * 10 := by
        rw [← List.replicate_one, ofDigitChars_append_zeros, ofDigitChars_append_zeros, pow_one]
      have htext : (String.ofList (digits.take place.toNat
            ++ List.replicate (place.toNat - digits.length) '0') ++ ".0").toList
          = (digits ++ List.replicate (place.toNat - digits.length) '0') ++ '.' :: ['0'] := by
        rw [String.toList_append, String.toList_ofList, List.take_of_length_le hlen]
        rfl
      rw [htext]
      refine Spells.fixed (by simp [hne]) (fun c hc => ?_) (by simp)
        (by rw [hnum]; positivity) ?_
      · exact (List.mem_append.1 hc).elim (hdigits c) isDigit_replicate_zero
      · have hexp : place - digits.length = ((place.toNat - digits.length : ℕ) : ℤ) := by omega
        rw [hnum, hexp, zpow_natCast]
        push_cast
        rw [List.length_singleton, Nat.cast_one, zpow_neg_one]
        field_simp
    · -- the point stands among the digits
      next hdrop =>
      have hlen : place.toNat < digits.length := by
        by_contra hge
        exact hdrop (List.drop_eq_nil_iff.2 (by omega))
      have htext : (String.ofList (digits.take place.toNat
            ++ List.replicate (place.toNat - digits.length) '0') ++ "."
            ++ String.ofList (digits.drop place.toNat)).toList
          = digits.take place.toNat ++ '.' :: digits.drop place.toNat := by
        rw [show place.toNat - digits.length = 0 by omega]
        simp
      rw [htext]
      refine Spells.fixed ?_ (fun c hc => hdigits c (List.mem_of_mem_take hc))
        (fun c hc => hdigits c (List.mem_of_mem_drop hc)) (by rwa [List.take_append_drop]) ?_
      · rw [ne_eq, List.take_eq_nil_iff, not_or]
        exact ⟨by omega, hne⟩
      · rw [List.take_append_drop, List.length_drop]
        congr 2
        omega

/-- A decimal as the language writes it, in either layout. -/
theorem spells_decimal {d : Scaled} (hd : 0 < d.digits) :
    Spells (literal.decimal d).toList (d.digits * 10 ^ d.exponent) := by
  have hdigits : ∀ c ∈ Nat.toDigits 10 d.digits, c.isDigit = true := fun c => isDigit_toDigits
  have hvalue : Nat.ofDigitChars 10 (Nat.toDigits 10 d.digits) 0 = d.digits :=
    Nat.ofDigitChars_ten_toDigits
  have hne : Nat.toDigits 10 d.digits ≠ [] := Nat.toDigits_ne_nil
  unfold Layout.decimal
  dsimp only
  split
  · have h := spells_powered hne hdigits (by rwa [hvalue])
      (d.exponent + (Nat.toDigits 10 d.digits).length - 1) literal.exponentWidth
    rwa [hvalue, show d.exponent + ((Nat.toDigits 10 d.digits).length : ℤ) - 1 + 1
      - ((Nat.toDigits 10 d.digits).length : ℤ) = d.exponent by omega] at h
  · have h := spells_pointed hne hdigits (by rwa [hvalue])
      (d.exponent + (Nat.toDigits 10 d.digits).length - 1 + 1)
    rwa [hvalue, show d.exponent + ((Nat.toDigits 10 d.digits).length : ℤ) - 1 + 1
      - ((Nat.toDigits 10 d.digits).length : ℤ) = d.exponent by omega] at h


-- ============================================== signs and special words

/-- A text with a minus in front, or without. -/
def withSign (negative : Bool) (cs : List Char) : List Char :=
  if negative then '-' :: cs else cs

/-- A sign is taken off as it was put on. -/
theorem signed_withSign {c : Char} (hc : c.isDigit = true) (negative : Bool)
    (rest : List Char) :
    signed (withSign negative (c :: rest)) = (negative, c :: rest) := by
  cases negative with
  | true => rfl
  | false =>
    show signed (c :: rest) = (false, c :: rest)
    unfold signed
    split
    · next h =>
      cases h
      cases hc
    · next h =>
      cases h
      cases hc
    · rfl

theorem lowerLetter_of_isDigit {c : Char} (hc : c.isDigit = true) : lowerLetter c = c := by
  unfold lowerLetter
  rw [if_neg]
  simp only [Char.isDigit, Bool.and_eq_true, decide_eq_true_eq, Char.le_def] at hc ⊢
  have h1 : c.val.toNat ≤ 57 := hc.2
  intro h
  have h2 : 65 ≤ c.val.toNat := h.1
  omega

/-- What starts with a digit is none of the special words. -/
theorem special?_withSign {c : Char} (hc : c.isDigit = true) (negative : Bool)
    (rest : List Char) : special? (withSign negative (c :: rest)) = none := by
  have hword : ∀ word : String, word.toList.head?.all (·.isDigit) = false →
      (String.ofList ((c :: rest).map lowerLetter) == word) = false := by
    intro word hword
    rw [beq_eq_false_iff_ne]
    rintro rfl
    simp [lowerLetter_of_isDigit hc, hc] at hword
  have hnan : ((withSign negative (c :: rest)).map lowerLetter == ['n', 'a', 'n']) = false := by
    rw [beq_eq_false_iff_ne]
    intro h
    cases negative with
    | true => cases (List.cons.inj h).1
    | false =>
      have hn : lowerLetter c = 'n' := (List.cons.inj h).1
      rw [lowerLetter_of_isDigit hc] at hn
      rw [hn] at hc
      cases hc
  unfold special?
  rw [signed_withSign hc]
  dsimp only
  rw [hword "inf" (by simp), hword "infinity" (by simp), hnan]
  rfl

/-- The hexadecimal mark is no part of an unsigned text. -/
theorem lowerLetter_ne_hexMark {c : Char} (h : numeric c = true) : lowerLetter c ≠ 'x' := by
  simp only [numeric, Bool.or_eq_true, beq_iff_eq] at h
  rcases h with (((h | rfl) | rfl) | rfl) | rfl
  · rw [lowerLetter_of_isDigit h]
    rintro rfl
    cases h
  all_goals decide

/-- An unsigned text, with or without a minus, is read as a decimal. -/
theorem float?_withSign {cs : List Char} (hcs : Unsigned cs) (negative : Bool) :
    float? (withSign negative cs) = decimalFloat? negative cs := by
  obtain ⟨⟨c, rest, rfl, hc⟩, hbytes, -⟩ := hcs
  have hunderscore : (c :: rest).contains '_' = false := by
    rw [List.contains_eq_mem, decide_eq_false_iff_not]
    intro hmem
    cases hbytes '_' hmem
  unfold float?
  rw [special?_withSign hc, signed_withSign hc]
  dsimp only
  rw [hunderscore, Bool.false_and, if_neg (by decide)]
  split
  · next x y tail htext =>
    have hx : x ∈ c :: rest := by simp [htext]
    rw [if_neg (by simpa using lowerLetter_ne_hexMark (hbytes x hx)), htext]
  · rfl

/-- An unsigned text, with or without a minus, is no integer. -/
theorem int?_withSign {cs : List Char} (hcs : Unsigned cs) (negative : Bool) :
    int? (withSign negative cs) = none := by
  obtain ⟨⟨c, rest, rfl, hc⟩, -, ⟨d, hd, hmark⟩⟩ := hcs
  unfold int?
  rw [signed_withSign hc]
  dsimp only
  rw [nat?, natFrom_eq_none hd hmark]
  · rfl
  · intro h
    cases h

-- ============================================== what is written reads back

theorem unsigned_zero : Unsigned ['0', '.', '0'] :=
  ⟨⟨'0', _, rfl, by decide⟩, List.all_eq_true.1 rfl, ⟨'.', by decide, by decide⟩⟩

/-- The sign of a number, as characters. -/
theorem toList_signed (negative : Bool) (s : String) :
    ((if negative then "-" else "") ++ s).toList = withSign negative s.toList := by
  cases negative <;> simp [withSign]

/-- How a float is written: as one of the three words, or as an unsigned
text with its sign, which reads as the float. -/
theorem renderFloat_cases (x : Float) :
    (renderFloat x = "NaN" ∧ x = nan)
    ∨ (∃ negative : Bool, renderFloat x = (if negative then "-Inf" else "+Inf")
        ∧ x = ofMagnitude negative infinityBits)
    ∨ ∃ negative cs, (renderFloat x).toList = withSign negative cs ∧ Unsigned cs
        ∧ decimalFloat? negative cs = some x := by
  have hx := eq_of_view x
  unfold renderFloat Layout.float
  cases hview : view x with
  | nan =>
    rw [hview] at hx
    exact .inl ⟨rfl, hx⟩
  | infinite negative =>
    rw [hview] at hx
    exact .inr (.inl ⟨negative, rfl, hx⟩)
  | finite negative m q =>
    rw [hview] at hx
    obtain ⟨hx, hm⟩ := hx
    rw [Layout.number]
    -- zero has no shortest digits and is written by itself
    rcases hm with ⟨rfl, rfl⟩ | hreg
    · refine .inr (.inr ⟨negative, ['0', '.', '0'], ?_, unsigned_zero, ?_⟩)
      · rw [if_pos (by decide), String.append_assoc, toList_signed]
        simp [literal]
      · rw [hx]
        cases negative <;> rfl
    · have hnear := shortest_nearest hreg
      have hpos : 0 < (shortest double m q).digits := by
        rcases Nat.eq_zero_or_pos (shortest double m q).digits with hzero | h
        · have := hnear.positive hreg.positive
          rw [hzero, Nat.cast_zero, zero_mul] at this
          exact absurd this (lt_irrefl 0)
        · exact h
      have hspells := spells_decimal hpos
      obtain ⟨n, e, hn, hvalue, hread⟩ := hspells.read
      refine .inr (.inr ⟨negative, _, ?_, hspells.toUnsigned, ?_⟩)
      · rw [if_neg (by simpa using hreg.positive.ne'), toList_signed]
      · rw [hread, ofDecimal_eq hreg hn (by rwa [hvalue]), hx]

/-- A written float reads back as itself. -/
theorem float?_renderFloat (x : Float) : float? (renderFloat x).toList = some x := by
  rcases renderFloat_cases x with
    ⟨htext, hx⟩ | ⟨negative, htext, hx⟩ | ⟨negative, cs, htext, hcs, hread⟩
  · rw [htext, hx]
    rfl
  · rw [htext, hx]
    cases negative <;> rfl
  · rw [htext, float?_withSign hcs, hread]

/-- A written float does not read as an integer. -/
theorem int?_renderFloat (x : Float) : int? (renderFloat x).toList = none := by
  rcases renderFloat_cases x with
    ⟨htext, -⟩ | ⟨negative, htext, -⟩ | ⟨negative, cs, htext, hcs, -⟩
  · rw [htext]
    rfl
  · rw [htext]
    cases negative <;> rfl
  · rw [htext, int?_withSign hcs]

/-- The bytes that numbers are written with. -/
def written (c : Char) : Bool :=
  c.isAlphanum || c == '.' || c == '+' || c == '-'

/-- What a number is written in can stand in a word. -/
theorem written_of_numeric {c : Char} (h : numeric c = true) : written c = true := by
  simp only [numeric, Bool.or_eq_true, beq_iff_eq] at h
  rcases h with (((h | rfl) | rfl) | rfl) | rfl
  · simp [written, Char.isAlphanum, h]
  all_goals decide

/-- So can it with a sign in front. -/
theorem withSign_written {cs : List Char} (hcs : ∀ c ∈ cs, written c = true) (negative : Bool) :
    ∀ c ∈ withSign negative cs, written c = true := by
  intro c hc
  cases negative with
  | false => exact hcs c hc
  | true =>
    rcases List.mem_cons.1 hc with rfl | hc
    · decide
    · exact hcs c hc

theorem withSign_ne_nil {cs : List Char} (hcs : cs ≠ []) (negative : Bool) :
    withSign negative cs ≠ [] := by
  cases negative with
  | false => exact hcs
  | true => exact List.cons_ne_nil _ _

/-- A float is written in one word. -/
theorem renderFloat_written (x : Float) :
    (renderFloat x).toList ≠ [] ∧ ∀ c ∈ (renderFloat x).toList, written c = true := by
  rcases renderFloat_cases x with
    ⟨htext, -⟩ | ⟨negative, htext, -⟩ | ⟨negative, cs, htext, hcs, -⟩
  · rw [htext]
    exact ⟨by decide, List.all_eq_true.1 rfl⟩
  · rw [htext]
    cases negative <;> exact ⟨by decide, List.all_eq_true.1 rfl⟩
  · rw [htext]
    obtain ⟨c, rest, hhead, -⟩ := hcs.head
    exact ⟨withSign_ne_nil (by simp [hhead]) negative,
      withSign_written (fun d hd => written_of_numeric (hcs.bytes d hd)) negative⟩

theorem toList_renderInt (n : ℤ) :
    (renderInt n).toList = withSign (decide (n < 0)) (Nat.toDigits 10 n.natAbs) := by
  unfold renderInt
  by_cases hn : n < 0 <;> simp [hn, withSign]

theorem renderInt_written (n : ℤ) :
    (renderInt n).toList ≠ [] ∧ ∀ c ∈ (renderInt n).toList, written c = true := by
  rw [toList_renderInt]
  exact ⟨withSign_ne_nil Nat.toDigits_ne_nil _, withSign_written
    (fun c hc => written_of_numeric (numeric_of_isDigit (isDigit_toDigits hc))) _⟩

/-- A written integer reads back as itself. -/
theorem int?_renderInt (n : ℤ) : int? (renderInt n).toList = some n := by
  have hdigits : ∀ c ∈ Nat.toDigits 10 n.natAbs, c.isDigit = true := fun c => isDigit_toDigits
  have hne : Nat.toDigits 10 n.natAbs ≠ [] := Nat.toDigits_ne_nil
  have hread := nat?_digits hne hdigits
  rw [Nat.ofDigitChars_ten_toDigits] at hread
  rw [toList_renderInt]
  unfold int?
  cases htext : Nat.toDigits 10 n.natAbs with
  | nil => exact absurd htext hne
  | cons c rest =>
    rw [htext] at hread hdigits
    rw [signed_withSign (hdigits c List.mem_cons_self)]
    dsimp only
    rw [hread]
    refine congrArg some ?_
    show (if decide (n < 0) then -(n.natAbs : ℤ) else n.natAbs) = n
    by_cases hn : n < 0
    · rw [if_pos (by simpa using hn)]
      omega
    · rw [if_neg (by simpa using hn)]
      omega

end LispShell.Decimal
