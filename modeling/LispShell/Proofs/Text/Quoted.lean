/-
A quoted text can be read back.

The bytes that spell a character are read as that character and no other,
whatever follows them (`charAt?_spelling`), so the letters of a text that
spells characters are those characters (`letters_ofChars`). In quotes each
of them is written as itself or as an escape. `firstQuoted` reads one
character from what stands inside quotes; it undoes the writing
(`firstQuoted_escapeLetter`). Nothing that is written for a character
starts with a double quote, so the closing quote is found where it stands,
and two quoted texts with something after each are the same only if the
texts and what follows are (`quote_append_inj`).
-/
import LispShell.Text.Quoted

namespace LispShell.Text

open scoped Power

-- ====================================================== characters and their bytes

/-- A byte is a number up to its width. -/
theorem toNat_byte (n : Nat) : (byte n).toNat = n % 256 := by
  have hvalid : (n % 256).isValidChar := .inl (by omega)
  unfold byte Char.ofNat
  rw [dif_pos hvalid]
  rfl

theorem toNat_lt_max (c : Char) : c.toNat < 0x110000 := by
  have hvalid : c.toNat.isValidChar := c.valid
  rcases hvalid with h | h
  · omega
  · omega

/-- The byte after the first one that adds the low bits of `k`. -/
def trailing (k : Nat) : Char :=
  byte (0x80 + k % 64)

/-- A trailing byte gives back its six bits. -/
theorem trail?_trailing (k : Nat) : trail? (trailing k) = some (k % 64) := by
  have hbyte : (trailing k).toNat = 0x80 + k % 64 := by
    rw [trailing, toNat_byte]
    omega
  unfold trail?
  rw [hbyte, if_pos (by simp; omega), Nat.add_sub_cancel_left]

/-- Trailing bytes give back the number they are six bits each of. -/
theorem trails?_trailing (head : Nat) (parts : List Nat) (rest : List Char) :
    trails? head parts.length (parts.map trailing ++ rest)
      = some (parts.foldl (fun n k => 64 * n + k % 64) head) := by
  induction parts generalizing head with
  | nil => rfl
  | cons k parts ih =>
    simp only [List.length_cons, List.map_cons, List.cons_append, trails?, trail?_trailing,
      Option.bind_eq_bind, Option.bind_some, List.foldl_cons]
    exact ih _

/-- Bytes that add up to a character which needs that many spell it. -/
theorem spelled?_trailing {c : Char} {head least : Nat} (parts : List Nat)
    (hvalue : parts.foldl (fun n k => 64 * n + k % 64) head = c.toNat) (hleast : least ≤ c.toNat)
    (rest : List Char) :
    spelled? head least parts.length (parts.map trailing ++ rest) = some (c, parts.length) := by
  have hvalid : c.toNat.isValidChar := c.valid
  unfold spelled?
  rw [trails?_trailing, hvalue]
  simp [hleast, hvalid, Char.ofNat_toNat]

/-- The bytes that spell a character are read as that character, whatever
comes after them. -/
theorem charAt?_spelling (c : Char) :
    ∃ b bytes, spelling c = b :: bytes
      ∧ ∀ rest, charAt? b (bytes ++ rest) = some (c, bytes.length) := by
  have hmax := toNat_lt_max c
  unfold spelling charAt?
  dsimp only
  -- The four lengths, shortest first. The first byte tells them apart, so it is computed before
  -- the reader is run on it.
  by_cases h1 : c.toNat < 0x80
  · rw [if_pos h1]
    exact ⟨c, [], rfl, fun rest => if_pos h1⟩
  rw [if_neg h1]
  by_cases h2 : c.toNat < 0x800
  · have hfirst : (byte (0xc0 + c.toNat / 64)).toNat = 0xc0 + c.toNat / 64 := by
      rw [toNat_byte]
      omega
    rw [if_pos h2]
    refine ⟨_, [trailing (c.toNat / 64 ^ 0)], rfl, fun rest => ?_⟩
    rw [hfirst, if_neg (by omega), if_neg (by omega), if_pos (by omega)]
    apply spelled?_trailing [c.toNat / 64 ^ 0]
    · simp
      omega
    · omega
  rw [if_neg h2]
  by_cases h3 : c.toNat < 0x10000
  · have hfirst : (byte (0xe0 + c.toNat / 64 ^ (2 : Nat))).toNat
        = 0xe0 + c.toNat / 64 ^ (2 : Nat) := by
      rw [toNat_byte]
      omega
    rw [if_pos h3]
    refine ⟨_, [trailing (c.toNat / 64 ^ 1), trailing (c.toNat / 64 ^ 0)], rfl, fun rest => ?_⟩
    rw [hfirst, if_neg (by omega), if_neg (by omega), if_neg (by omega), if_pos (by omega)]
    apply spelled?_trailing [c.toNat / 64 ^ 1, c.toNat / 64 ^ 0]
    · simp
      omega
    · omega
  · have hfirst : (byte (0xf0 + c.toNat / 64 ^ (3 : Nat))).toNat
        = 0xf0 + c.toNat / 64 ^ (3 : Nat) := by
      rw [toNat_byte]
      omega
    rw [if_neg h3]
    refine ⟨_, [trailing (c.toNat / 64 ^ 2), trailing (c.toNat / 64 ^ 1),
      trailing (c.toNat / 64 ^ 0)], rfl, fun rest => ?_⟩
    rw [hfirst, if_neg (by omega), if_neg (by omega), if_neg (by omega), if_neg (by omega),
      if_pos (by omega)]
    apply spelled?_trailing [c.toNat / 64 ^ 2, c.toNat / 64 ^ 1, c.toNat / 64 ^ 0]
    · simp
      omega
    · omega

/-- The bytes of a character are read as the character. -/
theorem first_spelling {c b : Char} {bytes : List Char} (h : spelling c = b :: bytes)
    (rest : List Char) : Letter.first b (bytes ++ rest) = .ofChar c := by
  obtain ⟨b', bytes', hspelling, hchar⟩ := charAt?_spelling c
  rw [h] at hspelling
  cases hspelling
  unfold Letter.first Letter.ofChar
  rw [hchar rest, h]
  simp

/-- Bytes that belong to a character before them are passed over. -/
theorem lettersFrom_append (skipped rest : List Char) :
    lettersFrom skipped.length (skipped ++ rest) = lettersFrom 0 rest := by
  induction skipped with
  | nil => rfl
  | cons c skipped ih => simpa [lettersFrom] using ih

/-- The letters of a text that spells characters are these characters. -/
theorem letters_ofChars (cs : List Char) : letters (ofChars cs) = cs.map Letter.ofChar := by
  unfold letters ofChars
  rw [String.toList_ofList]
  induction cs with
  | nil => rfl
  | cons c cs ih =>
    obtain ⟨b, bytes, hspelling, -⟩ := charAt?_spelling c
    have hletter := first_spelling hspelling (cs.flatMap spelling)
    have hlength : (Letter.ofChar c).bytes.length - 1 = bytes.length := by
      simp [Letter.ofChar, hspelling]
    rw [List.flatMap_cons, hspelling, List.cons_append, lettersFrom, hletter, hlength,
      lettersFrom_append, ih, List.map_cons]

-- ====================================================== hexadecimal digits

/-- What a hexadecimal digit counts. -/
def hexValue (c : Char) : Nat :=
  if c.isDigit then c.toNat - 48 else c.toNat - 87

/-- The number that hexadecimal digits spell. -/
def ofHex (cs : List Char) : Nat :=
  cs.foldl (fun n c => 16 * n + hexValue c) 0

theorem hexValue_digitChar : ∀ d, d < 16 → hexValue (Nat.digitChar d) = d := by
  decide

theorem length_hexDigits (width n : Nat) : (hexDigits width n).length = width := by
  induction width generalizing n with
  | zero => rfl
  | succ width ih => simp [hexDigits, ih]

/-- Hexadecimal digits are read as the number they write. -/
theorem ofHex_hexDigits {width n : Nat} (h : n < 16 ^ width) : ofHex (hexDigits width n) = n := by
  induction width generalizing n with
  | zero =>
    have hzero : n = 0 := by simpa using h
    rw [hzero]
    rfl
  | succ width ih =>
    have hdiv : n / 16 < 16 ^ width := by
      rw [Nat.pow_succ] at h
      omega
    have hrest := ih hdiv
    unfold ofHex at hrest
    unfold ofHex hexDigits
    rw [List.foldl_append, hrest, List.foldl_cons, List.foldl_nil,
      hexValue_digitChar _ (Nat.mod_lt n (by decide))]
    omega

-- ====================================================== reading one character

/-- The character that an escape of one letter stands for. -/
def escaped : Char → Char
  | 'a' => '\x07'
  | 'b' => '\x08'
  | 'f' => '\x0c'
  | 'n' => '\n'
  | 'r' => '\r'
  | 't' => '\t'
  | 'v' => '\x0b'
  | c => c

/-- The character that hexadecimal digits of a given number stand for, and
what comes after them. -/
def ofDigits (width : Nat) (cs : List Char) : Char × List Char :=
  (Char.ofNat (ofHex (cs.take width)), cs.drop width)

/-- The first character inside quotes, and what comes after it. -/
def firstQuoted : List Char → Option (Char × List Char)
  | [] => none
  | '\\' :: 'x' :: rest => some (ofDigits 2 rest)
  | '\\' :: 'u' :: rest => some (ofDigits 4 rest)
  | '\\' :: 'U' :: rest => some (ofDigits 8 rest)
  | '\\' :: c :: rest => some (escaped c, rest)
  | b :: rest => (charAt? b rest).map fun (c, count) => (c, rest.drop count)

theorem ofDigits_hexDigits (width : Nat) {c : Char} (h : c.toNat < 16 ^ width)
    (rest : List Char) : ofDigits width (hexDigits width c.toNat ++ rest) = (c, rest) := by
  have hlength := length_hexDigits width c.toNat
  unfold ofDigits
  rw [List.take_left' hlength, List.drop_left' hlength, ofHex_hexDigits h, Char.ofNat_toNat]

/-- An escape stands for its character. -/
theorem firstQuoted_escapeChar (c : Char) (rest : List Char) :
    firstQuoted (escapeChar c ++ rest) = some (c, rest) := by
  have hmax := toNat_lt_max c
  have hchar : ∀ {n : Nat}, c.toNat = n → c = Char.ofNat n := by
    rintro n rfl
    exact (Char.ofNat_toNat c).symm
  unfold escapeChar
  split
  iterate 7 · next h => rw [hchar h]; rfl
  · split
    · next h =>
      have hlt : c.toNat < 16 ^ 2 := by
        simp only [Bool.or_eq_true, decide_eq_true_eq, beq_iff_eq] at h
        omega
      exact congrArg some (ofDigits_hexDigits 2 hlt rest)
    · split
      · next h => exact congrArg some (ofDigits_hexDigits 4 (by omega) rest)
      · exact congrArg some (ofDigits_hexDigits 8 (by omega) rest)

/-- The first byte of a character is no backslash and no double quote,
unless that is the character. -/
theorem spelling_head {c b : Char} {bytes : List Char} (h : spelling c = b :: bytes)
    {ascii : Char} (hascii : ascii.toNat < 0x80) (hne : c ≠ ascii) : b ≠ ascii := by
  rintro rfl
  obtain ⟨b', bytes', hspelling, hchar⟩ := charAt?_spelling c
  rw [h] at hspelling
  cases hspelling
  have hread := hchar []
  unfold charAt? at hread
  rw [if_pos hascii] at hread
  exact hne (Prod.mk.inj (Option.some.inj hread)).1.symm

/-- Any other spelling for its own. -/
theorem firstQuoted_spelling {c : Char} (hne : c ≠ '\\') (rest : List Char) :
    firstQuoted (spelling c ++ rest) = some (c, rest) := by
  obtain ⟨b, bytes, hspelling, hchar⟩ := charAt?_spelling c
  have hb : b ≠ '\\' := spelling_head hspelling (by decide) hne
  rw [hspelling, List.cons_append]
  have hfirst : firstQuoted (b :: (bytes ++ rest))
      = (charAt? b (bytes ++ rest)).map fun (c, count) => (c, (bytes ++ rest).drop count) := by
    unfold firstQuoted
    split
    all_goals simp_all
  rw [hfirst, hchar rest]
  simp

/-- Reading undoes writing: what is written for a character is read as that
character. -/
theorem firstQuoted_escapeLetter (c : Char) (rest : List Char) :
    firstQuoted (escapeLetter (.ofChar c) ++ rest) = some (c, rest) := by
  unfold escapeLetter Letter.ofChar
  dsimp only
  split
  · next h =>
    simp only [Bool.or_eq_true, beq_iff_eq] at h
    rcases h with rfl | rfl <;> rfl
  · next h =>
    simp only [Bool.or_eq_true, beq_iff_eq, not_or] at h
    split
    · exact firstQuoted_spelling h.2 rest
    · exact firstQuoted_escapeChar c rest

/-- Nothing that is written for a character starts with a double quote. -/
theorem escapeLetter_head (c : Char) :
    ∃ b bytes, escapeLetter (.ofChar c) = b :: bytes ∧ b ≠ '"' := by
  unfold escapeLetter Letter.ofChar
  dsimp only
  split
  · exact ⟨_, _, rfl, by decide⟩
  · next h =>
    simp only [Bool.or_eq_true, beq_iff_eq, not_or] at h
    split
    · obtain ⟨b, bytes, hspelling, -⟩ := charAt?_spelling c
      exact ⟨b, bytes, hspelling, spelling_head hspelling (by decide) h.1⟩
    · unfold escapeChar
      repeat' split
      all_goals exact ⟨_, _, rfl, by decide⟩

-- ====================================================== whole texts

/-- What stands inside the quotes of a text that spells characters. -/
def quotedBody (cs : List Char) : List Char :=
  cs.flatMap fun c => escapeLetter (.ofChar c)

/-- A quoted text ends at its closing quote. -/
theorem quotedBody_append_inj {cs ds rest rest' : List Char}
    (h : quotedBody cs ++ '"' :: rest = quotedBody ds ++ '"' :: rest') :
    cs = ds ∧ rest = rest' := by
  induction cs generalizing ds with
  | nil =>
    cases ds with
    | nil => exact ⟨rfl, List.tail_eq_of_cons_eq h⟩
    | cons d ds =>
      obtain ⟨b, bytes, hd, hb⟩ := escapeLetter_head d
      simp only [quotedBody, List.flatMap_nil, List.flatMap_cons, hd] at h
      exact absurd (List.head_eq_of_cons_eq h).symm hb
  | cons c cs ih =>
    cases ds with
    | nil =>
      obtain ⟨b, bytes, hc, hb⟩ := escapeLetter_head c
      simp only [quotedBody, List.flatMap_nil, List.flatMap_cons, hc] at h
      exact absurd (List.head_eq_of_cons_eq h) hb
    | cons d ds =>
      simp only [quotedBody, List.flatMap_cons, List.append_assoc] at h
      have hfirst := congrArg firstQuoted h
      rw [firstQuoted_escapeLetter, firstQuoted_escapeLetter] at hfirst
      obtain ⟨rfl, htail⟩ := Prod.mk.inj (Option.some.inj hfirst)
      obtain ⟨rfl, hrest⟩ := ih htail
      exact ⟨rfl, hrest⟩

/-- The quoted form of a text, character by character. -/
theorem toList_quote_encode (t : String) :
    (quote (encode t)).toList = '"' :: (quotedBody t.toList ++ ['"']) := by
  unfold quote encode
  rw [letters_ofChars, String.toList_ofList, quotedBody, List.flatMap_map]

/-- A quoted text ends where it ends: two of them with something after each
are the same only if the texts and what follows are. -/
theorem quote_append_inj {s t : String} {rest rest' : List Char}
    (h : (quote (encode s)).toList ++ rest = (quote (encode t)).toList ++ rest') :
    s = t ∧ rest = rest' := by
  rw [toList_quote_encode, toList_quote_encode] at h
  have hbody : quotedBody s.toList ++ '"' :: rest = quotedBody t.toList ++ '"' :: rest' := by
    simpa using h
  obtain ⟨hchars, hrest⟩ := quotedBody_append_inj hbody
  exact ⟨String.toList_inj.1 hchars, hrest⟩

end LispShell.Text
