/-
What a token stands for.

A token is read in stages. The first stage wants an integer of 64 bits and
gives up with the digit that goes past them, so its `outOfRange` says no
more than that the token begins like a wide integer: twenty digits are
answered so, and so are twenty digits with `.5`, `e3`, `_0` or letters after
them (`wordFrom_cases`, `narrowInt_cases`). The second stage reads such a
token as a whole, and what is no integer then goes on to the floats.

`ofToken_eq` says what the stages come to: a token is the integer it spells,
at any width, and only if it spells none a float or a symbol.
`ofToken_integer` says it of the written form: `Integral` is the grammar of
integers, a sign or none and at least one digit.
-/
import LispShell.Expr
import LispShell.Proofs.Decimal.Numeral

namespace LispShell

namespace Decimal

-- ============================================== integers of 64 bits

/-- Further digits make a number no smaller. -/
theorem le_of_natFrom {n k : ℕ} {cs : List Char} (h : natFrom n cs = some k) : n ≤ k := by
  induction cs generalizing n with
  | nil =>
    obtain rfl : n = k := by simpa [natFrom] using h
    exact le_rfl
  | cons c cs ih =>
    rw [natFrom] at h
    cases hc : digit? c with
    | none => simp [hc] at h
    | some d =>
      have hle := ih (by simpa [hc] using h)
      omega

/-- The bounded reading beside the one without a bound. What it makes of
digits past its bound is no verdict on the whole row. -/
theorem wordFrom_cases (n : ℕ) (cs : List Char) :
    match wordFrom n cs with
    | .ok k => natFrom n cs = some k
    | .error .outOfRange => ∀ k, natFrom n cs = some k → 2 ^ 64 ≤ k
    | .error .malformed => natFrom n cs = none := by
  induction cs generalizing n with
  | nil => rfl
  | cons c cs ih =>
    rw [wordFrom, natFrom]
    cases digit? c with
    | none => rfl
    | some d =>
      dsimp only
      by_cases hfits : 10 * n + d < 2 ^ 64
      · rw [if_pos hfits]
        exact ih (10 * n + d)
      · rw [if_neg hfits]
        intro k hk
        have hle := le_of_natFrom hk
        omega

/-- The same for a whole row of digits, where an empty one is no number at
all. -/
theorem word_cases (cs : List Char) :
    match word cs with
    | .ok k => nat? cs = some k
    | .error .outOfRange => ∀ k, nat? cs = some k → 2 ^ 64 ≤ k
    | .error .malformed => nat? cs = none := by
  cases cs with
  | nil => rfl
  | cons c cs => exact wordFrom_cases 0 (c :: cs)

/-- Reading an integer is reading the digits after the sign. -/
theorem int?_eq_some_iff_nat? {cs : List Char} {z : ℤ} :
    int? cs = some z
      ↔ ∃ n, nat? (signed cs).2 = some n ∧ (if (signed cs).1 then -(n : ℤ) else n) = z := by
  unfold int?
  dsimp only
  cases nat? (signed cs).2 with
  | none => simp
  | some n => simp

/-- The bounds of 64 bits, in figures. -/
theorem fits_iff (z : ℤ) :
    (Int64.minValue.toInt ≤ z && z ≤ Int64.maxValue.toInt) = true
      ↔ -2 ^ 63 ≤ z ∧ z ≤ 2 ^ 63 - 1 := by
  simp only [Bool.and_eq_true, decide_eq_true_eq, Int64.toInt_minValue, Int64.toInt_maxValue]

/-- What each verdict of the first stage says about the integer that is
spelled: it is read, it is past 64 bits if there is one at all, or there is
none. -/
theorem narrowInt_cases (cs : List Char) :
    match narrowInt cs with
    | .ok n => int? cs = some n.toInt
    | .error .outOfRange => ∀ z, int? cs = some z → ¬(-2 ^ 63 ≤ z ∧ z ≤ 2 ^ 63 - 1)
    | .error .malformed => int? cs = none := by
  have hword := word_cases (signed cs).2
  unfold narrowInt
  dsimp only
  cases hread : word (signed cs).2 with
  | error e =>
    rw [hread] at hword
    cases e with
    | malformed =>
      show int? cs = none
      refine Option.eq_none_iff_forall_ne_some.2 fun z hz => ?_
      obtain ⟨n, hn, -⟩ := int?_eq_some_iff_nat?.1 hz
      exact absurd (hn.symm.trans hword) (Option.some_ne_none n)
    -- too many digits for a word without a sign are too many with one
    | outOfRange =>
      show ∀ z, int? cs = some z → ¬(-2 ^ 63 ≤ z ∧ z ≤ 2 ^ 63 - 1)
      intro z hz
      obtain ⟨n, hn, rfl⟩ := int?_eq_some_iff_nat?.1 hz
      have hlarge : 2 ^ 64 ≤ n := hword n hn
      split <;> omega
  | ok n =>
    rw [hread] at hword
    dsimp only [bind, Except.bind]
    generalize hz : (if (signed cs).1 then -(n : ℤ) else n) = z
    have hint : int? cs = some z := int?_eq_some_iff_nat?.2 ⟨n, hword, hz⟩
    by_cases hfits : -2 ^ 63 ≤ z ∧ z ≤ 2 ^ 63 - 1
    · rw [if_pos ((fits_iff z).2 hfits)]
      show int? cs = some (Int64.ofInt z).toInt
      rw [hint, Int64.toInt_ofInt_of_le hfits.1 (by omega)]
    · rw [if_neg fun h => hfits ((fits_iff z).1 h)]
      show ∀ k, int? cs = some k → ¬(-2 ^ 63 ≤ k ∧ k ≤ 2 ^ 63 - 1)
      intro k hk
      obtain rfl : z = k := Option.some.inj (hint.symm.trans hk)
      exact hfits

-- ============================================== the grammar of integers

/-- The characters are decimal digits, at least one, with or without a sign
before them, and denote the integer. -/
inductive Integral : List Char → ℤ → Prop where
  | plain {ds : List Char} (some : ds ≠ []) (digits : ∀ d ∈ ds, d.isDigit = true) :
      Integral ds (Nat.ofDigitChars 10 ds 0)
  | plus {ds : List Char} (some : ds ≠ []) (digits : ∀ d ∈ ds, d.isDigit = true) :
      Integral ('+' :: ds) (Nat.ofDigitChars 10 ds 0)
  | minus {ds : List Char} (some : ds ≠ []) (digits : ∀ d ∈ ds, d.isDigit = true) :
      Integral ('-' :: ds) (-(Nat.ofDigitChars 10 ds 0 : ℤ))

/-- A row spells a number exactly if it is not empty and all of it are
digits. -/
theorem nat?_eq_some_iff {cs : List Char} {n : ℕ} :
    nat? cs = some n
      ↔ cs ≠ [] ∧ (∀ c ∈ cs, c.isDigit = true) ∧ Nat.ofDigitChars 10 cs 0 = n := by
  constructor
  · intro h
    have hne : cs ≠ [] := by
      rintro rfl
      cases h
    have hdigits : ∀ c ∈ cs, c.isDigit = true := by
      intro c hc
      by_contra hnot
      obtain ⟨d, ds, rfl⟩ := List.exists_cons_of_ne_nil hne
      rw [nat?, natFrom_eq_none hc (Bool.eq_false_iff.2 hnot)] at h
      · cases h
      · exact List.cons_ne_nil d ds
    rw [nat?_digits hne hdigits] at h
    exact ⟨hne, hdigits, Option.some.inj h⟩
  · rintro ⟨hne, hdigits, rfl⟩
    exact nat?_digits hne hdigits

/-- The three ways a row can begin. -/
theorem signed_cases (cs : List Char) :
    (∃ rest, cs = '-' :: rest ∧ signed cs = (true, rest))
      ∨ (∃ rest, cs = '+' :: rest ∧ signed cs = (false, rest)) ∨ signed cs = (false, cs) := by
  unfold signed
  split
  · exact .inl ⟨_, rfl, rfl⟩
  · exact .inr (.inl ⟨_, rfl, rfl⟩)
  · exact .inr (.inr rfl)

/-- Digits have no sign before them. -/
theorem signed_digits {ds : List Char} (digits : ∀ d ∈ ds, d.isDigit = true) :
    signed ds = (false, ds) := by
  rcases signed_cases ds with ⟨rest, rfl, -⟩ | ⟨rest, rfl, -⟩ | hplain
  · exact absurd (digits '-' List.mem_cons_self) (by decide)
  · exact absurd (digits '+' List.mem_cons_self) (by decide)
  · exact hplain

/-- The reader of integers and the grammar agree. -/
theorem int?_eq_some_iff {cs : List Char} {z : ℤ} : int? cs = some z ↔ Integral cs z := by
  constructor
  · intro h
    obtain ⟨n, hn, rfl⟩ := int?_eq_some_iff_nat?.1 h
    obtain ⟨hne, hdigits, rfl⟩ := nat?_eq_some_iff.1 hn
    rcases signed_cases cs with ⟨rest, rfl, hsigned⟩ | ⟨rest, rfl, hsigned⟩ | hsigned
    · rw [hsigned] at hne hdigits ⊢
      exact .minus hne hdigits
    · rw [hsigned] at hne hdigits ⊢
      exact .plus hne hdigits
    · rw [hsigned] at hne hdigits ⊢
      exact .plain hne hdigits
  · intro h
    cases h with
    | plain hne hdigits =>
      rw [int?_eq_some_iff_nat?, signed_digits hdigits]
      exact ⟨_, nat?_digits hne hdigits, rfl⟩
    | plus hne hdigits => exact int?_eq_some_iff_nat?.2 ⟨_, nat?_digits hne hdigits, rfl⟩
    | minus hne hdigits => exact int?_eq_some_iff_nat?.2 ⟨_, nat?_digits hne hdigits, rfl⟩

/-- A text denotes one integer at most. -/
theorem Integral.unique {cs : List Char} {z k : ℤ} (h : Integral cs z) (h' : Integral cs k) :
    z = k :=
  Option.some.inj ((int?_eq_some_iff.2 h).symm.trans (int?_eq_some_iff.2 h'))

end Decimal

namespace Expr

open Decimal (Integral)

-- ============================================== what the stages come to

/-- An integer literal, narrow if it fits 64 bits. -/
def ofInt (n : Int) : Form :=
  if Int64.minValue.toInt ≤ n && n ≤ Int64.maxValue.toInt then .int (Int64.ofInt n) else .wide () n

theorem ofInt_toInt (n : Int64) : ofInt n.toInt = .int n := by
  have hle := Int64.le_toInt n
  have hlt := Int64.toInt_lt n
  unfold ofInt
  rw [if_pos ((Decimal.fits_iff _).2 (by omega)), Int64.ofInt_toInt]

/-- What 64 bits do not hold is a wide literal. -/
theorem ofInt_of_wide {z : ℤ} (h : ¬(-2 ^ 63 ≤ z ∧ z ≤ 2 ^ 63 - 1)) :
    ofInt z = .wide () z :=
  if_neg fun hfits => h ((Decimal.fits_iff z).1 hfits)

/-- The two widths. -/
theorem ofInt_cases (z : ℤ) :
    (∃ n : Int64, n.toInt = z ∧ ofInt z = .int n)
      ∨ ¬(-2 ^ 63 ≤ z ∧ z ≤ 2 ^ 63 - 1) ∧ ofInt z = .wide () z := by
  by_cases hfits : -2 ^ 63 ≤ z ∧ z ≤ 2 ^ 63 - 1
  · have hz : (Int64.ofInt z).toInt = z := Int64.toInt_ofInt_of_le hfits.1 (by omega)
    exact .inl ⟨Int64.ofInt z, hz, if_pos ((Decimal.fits_iff z).2 hfits)⟩
  · exact .inr ⟨hfits, ofInt_of_wide hfits⟩

/-- A narrow literal is one that 64 bits hold. -/
theorem ofInt_eq_int_iff {z k : ℤ} :
    (∃ n : Int64, ofInt z = .int n ∧ n.toInt = k)
      ↔ z = k ∧ -2 ^ 63 ≤ k ∧ k ≤ 2 ^ 63 - 1 := by
  rcases ofInt_cases z with ⟨n, rfl, hz⟩ | ⟨hwide, hz⟩
  · have hle := Int64.le_toInt n
    have hlt := Int64.toInt_lt n
    rw [hz]
    constructor
    · rintro ⟨_, ⟨⟩, rfl⟩
      exact ⟨rfl, by omega⟩
    · rintro ⟨rfl, -⟩
      exact ⟨n, rfl, rfl⟩
  · rw [hz]
    constructor
    · rintro ⟨_, ⟨⟩, -⟩
    · rintro ⟨rfl, hfits⟩
      exact absurd hfits hwide

/-- A wide literal is one that 64 bits do not hold. -/
theorem ofInt_eq_wide_iff {z k : ℤ} :
    ofInt z = .wide () k ↔ z = k ∧ ¬(-2 ^ 63 ≤ k ∧ k ≤ 2 ^ 63 - 1) := by
  rcases ofInt_cases z with ⟨n, rfl, hz⟩ | ⟨hwide, hz⟩
  · have hle := Int64.le_toInt n
    have hlt := Int64.toInt_lt n
    rw [hz]
    constructor
    · rintro ⟨⟩
    · rintro ⟨rfl, hwide⟩
      omega
  · rw [hz]
    constructor
    · rintro ⟨rfl⟩
      exact ⟨rfl, hwide⟩
    · rintro ⟨rfl, -⟩
      rfl

/-- A token is the integer it spells, and only if it spells none a float or
a symbol. -/
theorem ofToken_eq (token : String) :
    ofToken token = match Decimal.int? token.toList with
      | some n => ofInt n
      | none => floatOrSymbol token := by
  have hcases := Decimal.narrowInt_cases token.toList
  unfold ofToken
  cases hread : Decimal.narrowInt token.toList with
  | ok n =>
    rw [hread] at hcases
    rw [show Decimal.int? token.toList = some n.toInt from hcases]
    exact (ofInt_toInt n).symm
  | error e =>
    rw [hread] at hcases
    cases e with
    | malformed => rw [show Decimal.int? token.toList = none from hcases]
    | outOfRange =>
      cases hint : Decimal.int? token.toList with
      | none => rfl
      | some z => exact (ofInt_of_wide (hcases z hint)).symm

-- ============================================== which tokens are integers

/-- A token that is written as an integer is that integer. -/
theorem ofToken_of_integral {token : String} {z : ℤ} (h : Integral token.toList z) :
    ofToken token = ofInt z := by
  rw [ofToken_eq, Decimal.int?_eq_some_iff.2 h]

/-- Any other token is a float or a symbol. -/
theorem ofToken_of_not_integral {token : String} (h : ¬∃ z, Integral token.toList z) :
    (∃ x, ofToken token = .float x) ∨ ofToken token = .symbol token := by
  have hint : Decimal.int? token.toList = none :=
    Option.eq_none_iff_forall_ne_some.2 fun z hz => h ⟨z, Decimal.int?_eq_some_iff.1 hz⟩
  rw [ofToken_eq, hint]
  dsimp only
  unfold floatOrSymbol
  cases Decimal.float? token.toList with
  | some x => exact .inl ⟨x, rfl⟩
  | none => exact .inr rfl

/-- A token is an integer exactly if it is written as one: a narrow one if
64 bits hold what it denotes, else a wide one. Every other token is a float
or a symbol, whatever it begins with. -/
theorem ofToken_integer (token : String) :
    (∀ z : ℤ, (∃ n : Int64, ofToken token = .int n ∧ n.toInt = z)
        ↔ Integral token.toList z ∧ -2 ^ 63 ≤ z ∧ z ≤ 2 ^ 63 - 1)
      ∧ (∀ z : ℤ, ofToken token = .wide () z
        ↔ Integral token.toList z ∧ ¬(-2 ^ 63 ≤ z ∧ z ≤ 2 ^ 63 - 1))
      ∧ ((∃ x, ofToken token = .float x) ∨ ofToken token = .symbol token
        ↔ ¬∃ z, Integral token.toList z) := by
  by_cases hspells : ∃ k, Integral token.toList k
  · obtain ⟨k, hk⟩ := hspells
    have hdenotes : ∀ z, Integral token.toList z ↔ k = z := fun z =>
      ⟨hk.unique, fun h => h ▸ hk⟩
    simp only [ofToken_of_integral hk, hdenotes]
    refine ⟨fun z => ofInt_eq_int_iff, fun z => ofInt_eq_wide_iff, ?_, ?_⟩
    · rcases ofInt_cases k with ⟨n, -, hn⟩ | ⟨-, hwide⟩
      · rw [hn]
        rintro (⟨x, hx⟩ | hx) <;> cases hx
      · rw [hwide]
        rintro (⟨x, hx⟩ | hx) <;> cases hx
    · exact fun hnone => absurd ⟨k, rfl⟩ hnone
  · have hother := ofToken_of_not_integral hspells
    have hnone : ∀ z, ¬Integral token.toList z := fun z hz => hspells ⟨z, hz⟩
    refine ⟨fun z => iff_of_false ?_ fun h => hnone z h.1,
      fun z => iff_of_false ?_ fun h => hnone z h.1, iff_of_true hother hspells⟩
    · rintro ⟨n, hint, -⟩
      rcases hother with ⟨x, hx⟩ | hx <;> cases hx.symm.trans hint
    · intro hwide
      rcases hother with ⟨x, hx⟩ | hx <;> cases hx.symm.trans hwide

-- the first stage alone would take both of these for wide integers
example : ofToken "+009223372036854775808" = .wide () 9223372036854775808
    ∧ ofToken "99999999999999999999x" = .symbol "99999999999999999999x" :=
  ⟨rfl, rfl⟩

end Expr

end LispShell
