/-
Numbers to and from machine words.

A word of 32 bits is written with or without a sign and read with one. So
a whole number from `2^31` on comes back less `2^32`, and every other one
that can be passed at all comes back as it was. A word of 64 bits carries
every narrow number. Read and written again, a word keeps the bits that
its type has (`words_faithful`).

A function of machine code runs on the words of its arguments, or not at
all: `checksFirst_invoke`.

# Method

Both directions are a remainder. The bits of `n` spell `n % 2^bits`, and
read with a sign they spell the balanced remainder of that
(`signedWord_wordOfInt`, `wordOfInt_signedWord`); the rest is where the
balanced remainder lies.
-/
import LispShell.Proofs.Arguments
import LispShell.Proofs.Integers
import LispShell.Wasm.Instance

namespace LispShell.Wasm

open scoped Power

-- ==================================================================== bits

section

variable {bits : Nat}

/-- A word is the number modulo its width. -/
theorem toNat_wordOfInt (hbits : bits ≤ 64) (n : Int) :
    ((wordOfInt bits n).toNat : Int) = n % 2 ^ bits := by
  have hpos : (0 : Int) < 2 ^ bits := Int.pow_pos (by decide)
  have hlt : n % 2 ^ bits < 2 ^ bits := Int.emod_lt_of_pos n hpos
  have hnonneg : 0 ≤ n % 2 ^ bits := Int.emod_nonneg n hpos.ne'
  have hle : (2 : Int) ^ bits ≤ 2 ^ (64 : Nat) := by
    exact_mod_cast Nat.pow_le_pow_right (by decide : 0 < 2) hbits
  rw [wordOfInt, UInt64.toNat_ofNat']
  omega

/-- What is read with a sign is the balanced remainder of what was
written. -/
theorem signedWord_wordOfInt (hbits : bits ≤ 64) (n : Int) :
    signedWord bits (wordOfInt bits n) = Int.bmod n (2 ^ bits) := by
  have hcast : ((2 ^ bits : Nat) : Int) = 2 ^ bits := Int.natCast_pow 2 bits
  rw [signedWord, Int.natCast_emod, toNat_wordOfInt hbits n, hcast, Int.emod_emod, ← hcast,
    Int.emod_bmod]

/-- A word read with a sign is the same word again. -/
theorem wordOfInt_signedWord (w : UInt64) :
    wordOfInt bits (signedWord bits w) = UInt64.ofNat (w.toNat % 2 ^ bits) := by
  have hcast : ((2 ^ bits : Nat) : Int) = 2 ^ bits := Int.natCast_pow 2 bits
  rw [wordOfInt, signedWord, ← hcast, Int.bmod_emod, ← Int.natCast_emod, Nat.mod_mod,
    Int.toNat_natCast]

end

/-- The integer `k` fits 32 bits with a sign and has the low 32 bits of
`n`. -/
structure Signed32 (n k : Int) : Prop where
  least : -2 ^ (31 : Nat) ≤ k
  most : k ≤ 2 ^ (31 : Nat) - 1
  congruent : k % 2 ^ (32 : Nat) = n % 2 ^ (32 : Nat)

namespace Signed32

/-- There is one signed number of a word. -/
theorem unique {n k m : Int} (hk : Signed32 n k) (hm : Signed32 n m) : m = k := by
  have hleast := hk.least
  have hmost := hk.most
  have hleast' := hm.least
  have hmost' := hm.most
  have hcongruent := hm.congruent.trans hk.congruent.symm
  omega

theorem bmod (n : Int) : Signed32 n (Int.bmod n (2 ^ (32 : Nat))) where
  least := Int.le_bmod (by decide)
  most := Int.le_sub_one_of_lt (Int.bmod_lt (by decide))
  congruent := Int.bmod_emod

/-- A number that fits without a sign only is not read back. -/
theorem eq_iff {n k : Int} (h : Signed32 n k) (hn : -2 ^ (31 : Nat) ≤ n) :
    k = n ↔ n ≤ 2 ^ (31 : Nat) - 1 := by
  constructor
  · rintro rfl
    exact h.most
  · intro hle
    exact Signed32.unique ⟨hn, hle, rfl⟩ h

end Signed32

/-- Read with a sign, the low 32 bits keep to 32 bits. -/
theorem signed32_signedWord (w : UInt64) : Signed32 w.toNat (signedWord 32 w) := by
  have hbmod := Signed32.bmod (w.toNat % 2 ^ (32 : Nat) : Nat)
  refine ⟨hbmod.least, hbmod.most, hbmod.congruent.trans ?_⟩
  omega

-- ================================================================ one number

section

variable (procedure : String) (position : Nat) (n : Int64)

/-- A number fits if it is one of the signed or the unsigned range. -/
theorem fitsWord32_iff (z : Int) :
    fitsWord32 z = true ↔ ¬(z < -2 ^ (31 : Nat) ∨ 2 ^ (32 : Nat) - 1 < z) := by
  simp only [fitsWord32, Bool.and_eq_true, decide_eq_true_eq]
  omega

theorem encode_i32_of_fits (h : fitsWord32 n.toInt = true) :
    encode procedure position .i32 (.int n) = .ok (wordOfInt 32 n.toInt) := by
  simp only [encode, h, word?, Bool.not_true, Bool.false_eq_true, if_false]

/-- A number that does not fit is refused for its range. -/
theorem encode_i32_of_not_fits (h : fitsWord32 n.toInt = false) :
    encode procedure position .i32 (.int n)
      = .error (.argumentRange procedure position ValType.i32.name) := by
  simp only [encode, h, Bool.not_false, if_true]

theorem encode_i64 :
    encode procedure position .i64 (.int n) = .ok (wordOfInt 64 n.toInt) :=
  rfl

end

/-- A narrow integer is the value it was made from. -/
theorem ofInt_eq_int {z : Int} (h : Value.isNarrow z = true) :
    ∃ n : Int64, Value.ofInt z = .int n ∧ n.toInt = z := by
  refine ⟨Int64.ofInt z, if_pos h, ?_⟩
  obtain ⟨hleast, hmost⟩ := (Value.isNarrow_iff z).1 h
  exact Int64.toInt_ofInt_of_le hleast (Int.lt_of_le_sub_one hmost)

/-- A word of 32 bits comes back with its sign. -/
theorem decode_i32 (w : UInt64) :
    ∃ n : Int64, decode .i32 w = .ok (.int n) ∧ n.toInt = signedWord 32 w := by
  have hbounds := signed32_signedWord w
  have hleast := hbounds.least
  have hmost := hbounds.most
  obtain ⟨n, hn, hvalue⟩ := ofInt_eq_int ((Value.isNarrow_iff (signedWord 32 w)).2 (by omega))
  exact ⟨n, congrArg Except.ok hn, hvalue⟩

/-- So does one of 64. -/
theorem decode_i64 (w : UInt64) :
    ∃ n : Int64, decode .i64 w = .ok (.int n) ∧ n.toInt = signedWord 64 w := by
  have hleast : -2 ^ (63 : Nat) ≤ signedWord 64 w := Int.le_bmod (by decide)
  have hmost : signedWord 64 w < 2 ^ (63 : Nat) := Int.bmod_lt (by decide)
  obtain ⟨n, hn, hvalue⟩ := ofInt_eq_int ((Value.isNarrow_iff (signedWord 64 w)).2 (by omega))
  exact ⟨n, congrArg Except.ok hn, hvalue⟩

/-- What comes back of a number that was passed as 32 bits. -/
theorem decode_encode_i32 (procedure : String) (position : Nat) {n : Int64}
    (h : fitsWord32 n.toInt = true) :
    ∃ (w : UInt64) (k : Int64), encode procedure position .i32 (.int n) = .ok w
      ∧ decode .i32 w = .ok (.int k) ∧ Signed32 n.toInt k.toInt := by
  obtain ⟨k, hdecode, hk⟩ := decode_i32 (wordOfInt 32 n.toInt)
  refine ⟨_, k, encode_i32_of_fits procedure position n h, hdecode, ?_⟩
  rw [hk, signedWord_wordOfInt (by decide)]
  exact Signed32.bmod n.toInt

/-- A number goes through a word of 64 bits unchanged. -/
theorem decode_encode_i64 (procedure : String) (position : Nat) (n : Int64) :
    ∃ w, encode procedure position .i64 (.int n) = .ok w ∧ decode .i64 w = .ok (.int n) := by
  obtain ⟨k, hdecode, hk⟩ := decode_i64 (wordOfInt 64 n.toInt)
  refine ⟨_, encode_i64 procedure position n, ?_⟩
  have hsame : k.toInt = n.toInt := by
    rw [hk, signedWord_wordOfInt (Nat.le_refl 64)]
    have hle := Int64.le_toInt n
    have hlt := Int64.toInt_lt n
    exact Int.bmod_eq_of_le (by omega) (by omega)
  rw [hdecode, Int64.toInt_inj.1 hsame]

/-- A word that was read as 32 bits is passed again as its low 32 bits. -/
theorem encode_decode_i32 (procedure : String) (position : Nat) (w : UInt64) :
    ∃ n, decode .i32 w = .ok (.int n) ∧ encode procedure position .i32 (.int n)
      = .ok (UInt64.ofNat (w.toNat % 2 ^ (32 : Nat))) := by
  obtain ⟨n, hdecode, hn⟩ := decode_i32 w
  have hsigned := signed32_signedWord w
  have hleast := hsigned.least
  have hmost := hsigned.most
  have hfits : fitsWord32 n.toInt = true := by
    rw [hn]
    exact (fitsWord32_iff _).2 (by omega)
  refine ⟨n, hdecode, ?_⟩
  rw [encode_i32_of_fits procedure position n hfits, hn, wordOfInt_signedWord]

/-- So does a word through a number. -/
theorem encode_decode_i64 (procedure : String) (position : Nat) (w : UInt64) :
    ∃ n, decode .i64 w = .ok (.int n) ∧ encode procedure position .i64 (.int n) = .ok w := by
  obtain ⟨n, hdecode, hn⟩ := decode_i64 w
  refine ⟨n, hdecode, ?_⟩
  rw [encode_i64, hn, wordOfInt_signedWord, Nat.mod_eq_of_lt (UInt64.toNat_lt w),
    UInt64.ofNat_toNat]

-- ========================================================== kinds of values

/-- The values that are of the right kind for a type: whole numbers of 64
bits for whole numbers, these and floats for floats, none for the rest. -/
def ValType.Takes : ValType → Value → Prop
  | .i32, v | .i64, v => ∃ n, v = .int n
  | .f32, v | .f64, v => (∃ n, v = .int n) ∨ ∃ x, v = .float x
  | .externref, _ | .other, _ => False

/-- An argument of the right kind fails by its size only. -/
theorem encode_of_takes (procedure : String) (position : Nat) {t : ValType} {v : Value}
    (h : t.Takes v) : (∃ w, encode procedure position t v = .ok w)
      ∨ encode procedure position t v = .error (.argumentRange procedure position t.name) := by
  cases t with
  | i32 =>
    obtain ⟨n, rfl⟩ := h
    cases hfits : fitsWord32 n.toInt with
    | true => exact .inl ⟨_, encode_i32_of_fits procedure position n hfits⟩
    | false => exact .inr (encode_i32_of_not_fits procedure position n hfits)
  | i64 =>
    obtain ⟨n, rfl⟩ := h
    exact .inl ⟨_, rfl⟩
  | f32 => rcases h with ⟨n, rfl⟩ | ⟨x, rfl⟩ <;> exact .inl ⟨_, rfl⟩
  | f64 => rcases h with ⟨n, rfl⟩ | ⟨x, rfl⟩ <;> exact .inl ⟨_, rfl⟩
  | externref => exact h.elim
  | other => exact h.elim

/-- A value of another type is refused for its type. -/
theorem encode_of_not_takes (procedure : String) (position : Nat) {t : ValType} {v : Value}
    (h : ¬t.Takes v) :
    encode procedure position t v = .error (.argument procedure position t.name v.repr) := by
  cases t with
  | i32 =>
    cases v with
    | int n => exact absurd ⟨n, rfl⟩ h
    | _ => rfl
  | i64 =>
    cases v with
    | int n => exact absurd ⟨n, rfl⟩ h
    | _ => rfl
  | f32 =>
    cases v with
    | int n => exact absurd (.inl ⟨n, rfl⟩) h
    | float x => exact absurd (.inr ⟨x, rfl⟩) h
    | _ => rfl
  | f64 =>
    cases v with
    | int n => exact absurd (.inl ⟨n, rfl⟩) h
    | float x => exact absurd (.inr ⟨x, rfl⟩) h
    | _ => rfl
  | externref => rfl
  | other => rfl

/-- A value of the wrong kind is a type error, and nothing else is. -/
theorem encode_typing_iff (procedure : String) (position : Nat) (t : ValType) (v : Value) :
    (∃ f, encode procedure position t v = .error f ∧ f.kind = .typing) ↔ ¬t.Takes v := by
  constructor
  · rintro ⟨f, hf, hkind⟩ htakes
    rcases encode_of_takes procedure position htakes with ⟨w, hw⟩ | hrange
    · cases hw.symm.trans hf
    · cases hrange.symm.trans hf
      cases hkind
  · intro h
    exact ⟨_, encode_of_not_takes procedure position h, rfl⟩

/-- A number that 32 bits cannot hold is a value error. -/
theorem encode_i32_value_iff (procedure : String) (position : Nat) (n : Int64) :
    (∃ f, encode procedure position .i32 (.int n) = .error f ∧ f.kind = .value)
      ↔ n.toInt < -2 ^ (31 : Nat) ∨ 2 ^ (32 : Nat) - 1 < n.toInt := by
  cases hfits : fitsWord32 n.toInt with
  | true =>
    have hin := (fitsWord32_iff n.toInt).1 hfits
    refine iff_of_false ?_ hin
    rintro ⟨f, hf, -⟩
    cases (encode_i32_of_fits procedure position n hfits).symm.trans hf
  | false =>
    refine iff_of_true ⟨_, encode_i32_of_not_fits procedure position n hfits, rfl⟩ ?_
    by_contra hin
    cases hfits.symm.trans ((fitsWord32_iff n.toInt).2 hin)

-- ==================================================================== calls

/-- A call of a function with these types, seen as a function of what the
function does. -/
def callOf (procedure : String) (params results : List ValType) (args : List Value)
    (run : List UInt64 → Globals → Except String (List UInt64) × Globals) (globals : Globals) :
    Except Failure Value × Globals :=
  invoke procedure ⟨params, results, run⟩ globals args

/-- What a call comes to once the function ran. -/
def concluded (procedure : String) (results : List ValType)
    (ran : Globals → Except String (List UInt64) × Globals) (globals : Globals) :
    Except Failure Value × Globals :=
  (conclude procedure results (ran globals).1, (ran globals).2)

/-- What a call comes to if the function did not run. -/
def refused (f : Fault) (globals : Globals) : Except Failure Value × Globals :=
  (.error (.fault f), globals)

/-- Encoding passes the arguments one by one. -/
theorem encodeArgs_eq_passAll (procedure : String) (position : Nat) (params : List ValType)
    (args : List Value) : encodeArgs procedure position params args
      = passAll (fun i => params[i]?) (fun i => encode procedure (i + position)) args := by
  induction args generalizing position params with
  | nil => cases params <;> rfl
  | cons v args ih =>
    cases params with
    | nil => rfl
    | cons t params =>
      have hshift : (fun i => encode procedure (i + (position + 1)))
          = fun i => encode procedure (i + 1 + position) := by
        funext i
        rw [Nat.add_right_comm]
        rfl
      have hrest := ih (position + 1) params
      rw [hshift] at hrest
      simp only [encodeArgs, passAll, List.getElem?_cons_zero, List.getElem?_cons_succ,
        Nat.zero_add, hrest]
      cases encode procedure position t v with
      | error f => rfl
      | ok w =>
        cases passAll (fun i => params[i]?) (fun i => encode procedure (i + 1 + position)) args
          <;> rfl

/-- A function checks their number and then each of them. -/
theorem prepare_eq_passChecked (procedure : String) (f : Function) (args : List Value) :
    prepare procedure f args = passChecked procedure (.exactly f.params.length)
      (fun i => f.params[i]?) (fun i => encode procedure (i + 1)) args := by
  simp only [prepare, checkArity, encodeArgs_eq_passAll, passChecked]
  split <;> rfl

/-- A function of machine code gets the words of all its arguments, or
does not run. -/
theorem checksFirst_invoke (procedure : String) (params results : List ValType)
    (args : List Value) :
    ChecksFirst (callOf procedure params results args) (concluded procedure results) refused
      procedure (.exactly params.length) (fun i => params[i]?)
      (fun i => encode procedure (i + 1)) args := by
  apply checksFirst_of_runPrepared
  · funext run globals
    rw [callOf, invoke, prepare_eq_passChecked]
    cases passChecked procedure (.exactly params.length) (fun i => params[i]?)
      (fun i => encode procedure (i + 1)) args <;> rfl
  · intro hadmits i hi
    rw [(Arity.admits_exactly _ _).1 hadmits] at hi
    exact ⟨_, List.getElem?_eq_getElem hi⟩
  · refine ⟨fun g => (.error "", g), fun g => (.error "unreachable", g), fun h => ?_⟩
    have hanswer := congrArg Prod.fst (congrFun h [])
    simp [concluded, conclude] at hanswer
  · intro f
    refine ⟨fun g => (.error "", g), fun h => ?_⟩
    have hanswer := congrArg Prod.fst (congrFun h [])
    simp [concluded, conclude, refused] at hanswer

/-- Conversion to and from words is faithful up to the width of the type,
and a function runs exactly on arguments that all convert. -/
theorem words_faithful (procedure : String) :
    (∀ (position : Nat) (n : Int64),
      ((∃ f, encode procedure position .i32 (.int n) = .error f ∧ f.kind = .value)
        ↔ n.toInt < -2 ^ (31 : Nat) ∨ 2 ^ (32 : Nat) - 1 < n.toInt)
      ∧ (¬(n.toInt < -2 ^ (31 : Nat) ∨ 2 ^ (32 : Nat) - 1 < n.toInt) →
        ∃ (w : UInt64) (k : Int64), encode procedure position .i32 (.int n) = .ok w
          ∧ decode .i32 w = .ok (.int k) ∧ Signed32 n.toInt k.toInt
          ∧ (∀ m, Signed32 n.toInt m → m = k.toInt) ∧ (k = n ↔ n.toInt ≤ 2 ^ (31 : Nat) - 1))
      ∧ ∃ w, encode procedure position .i64 (.int n) = .ok w ∧ decode .i64 w = .ok (.int n))
    ∧ (∀ (position : Nat) (w : UInt64),
      (∃ n, decode .i32 w = .ok (.int n) ∧ encode procedure position .i32 (.int n)
        = .ok (UInt64.ofNat (w.toNat % 2 ^ (32 : Nat))))
      ∧ ∃ n, decode .i64 w = .ok (.int n) ∧ encode procedure position .i64 (.int n) = .ok w)
    ∧ (∀ (position : Nat) (t : ValType) (v : Value),
      (∃ f, encode procedure position t v = .error f ∧ f.kind = .typing) ↔ ¬t.Takes v)
    ∧ ∀ (params results : List ValType) (args : List Value),
      ChecksFirst (callOf procedure params results args) (concluded procedure results) refused
        procedure (.exactly params.length) (fun i => params[i]?)
        (fun i => encode procedure (i + 1)) args := by
  refine ⟨fun position n => ⟨encode_i32_value_iff procedure position n, fun hin => ?_,
      decode_encode_i64 procedure position n⟩,
    fun position w =>
      ⟨encode_decode_i32 procedure position w, encode_decode_i64 procedure position w⟩,
    encode_typing_iff procedure, checksFirst_invoke procedure⟩
  have hfits : fitsWord32 n.toInt = true := (fitsWord32_iff n.toInt).2 hin
  obtain ⟨w, k, hencode, hdecode, hk⟩ := decode_encode_i32 procedure position hfits
  have hsame : k = n ↔ n.toInt ≤ 2 ^ (31 : Nat) - 1 := by
    rw [← Int64.toInt_inj]
    exact hk.eq_iff (by omega)
  exact ⟨w, k, hencode, hdecode, hk, fun m hm => hk.unique hm, hsame⟩

end LispShell.Wasm
