/-
Texts as bytes, and the letters that the bytes spell.

A text is a string of bytes: each of its characters stands for the byte
of the same number. ASCII characters are one byte each, and all others
take several, by the rules of UTF-8. A text is cut into letters: the
bytes that spell one character, or a single stray byte that is part of
none. No byte is lost by this, so letters can be taken apart and put
together again whatever a text holds.

`encode` and `decode` lead from characters to bytes and back; a stray
byte shows as the replacement character.
-/
import LispShell.Power

namespace LispShell.Text

open scoped Power

/-- The byte of a number. -/
def byte (n : Nat) : Char :=
  Char.ofNat (n % 256)

/-- The bytes that spell a character. -/
def spelling (c : Char) : List Char :=
  let n := c.toNat
  let trail (k : Nat) : Char := byte (0x80 + n / 64 ^ k % 64)
  if n < 0x80 then [c]
  else if n < 0x800 then [byte (0xc0 + n / 64), trail 0]
  else if n < 0x10000 then [byte (0xe0 + n / 64 ^ (2 : Nat)), trail 1, trail 0]
  else [byte (0xf0 + n / 64 ^ (3 : Nat)), trail 2, trail 1, trail 0]

/-- What a byte after the first one adds to a character. -/
def trail? (b : Char) : Option Nat :=
  if 0x80 ≤ b.toNat && b.toNat < 0xc0 then some (b.toNat - 0x80) else none

/-- What `count` bytes after the first one, which adds `n`, make of a
character. -/
def trails? (n : Nat) : Nat → List Char → Option Nat
  | 0, _ => some n
  | _ + 1, [] => none
  | count + 1, b :: rest => do trails? (64 * n + (← trail? b)) count rest

/-- The character that a first byte, which adds `n`, and `count` further
bytes spell. Those that fewer bytes can spell, up to `least`, do not
count. -/
def spelled? (n least count : Nat) (rest : List Char) : Option (Char × Nat) := do
  let n ← trails? n count rest
  if least ≤ n && decide n.isValidChar then some (Char.ofNat n, count) else none

/-- The character that a byte and some of those after it spell, and how
many of those. -/
def charAt? (b : Char) (rest : List Char) : Option (Char × Nat) :=
  let n := b.toNat
  if n < 0x80 then some (b, 0)
  else if n < 0xc0 then none
  else if n < 0xe0 then spelled? (n - 0xc0) 0x80 1 rest
  else if n < 0xf0 then spelled? (n - 0xe0) 0x800 2 rest
  else if n < 0xf8 then spelled? (n - 0xf0) 0x10000 3 rest
  else none

/-- A letter: its bytes, and the character they spell, none for a stray
byte. -/
structure Letter where
  bytes : List Char
  char? : Option Char
  deriving DecidableEq

/-- The letter that starts at a byte. -/
def Letter.first (b : Char) (rest : List Char) : Letter :=
  match charAt? b rest with
  | some (c, count) => ⟨b :: rest.take count, some c⟩
  | none => ⟨[b], none⟩

/-- The letter of a character. -/
def Letter.ofChar (c : Char) : Letter :=
  ⟨spelling c, some c⟩

/-- The text of a letter alone. -/
def Letter.text (l : Letter) : String :=
  String.ofList l.bytes

/-- The character that stands for a stray byte where bytes cannot be
shown. -/
def replacement : Char := '\ufffd'

/-- The character that shows a letter. -/
def Letter.shown (l : Letter) : Char :=
  l.char?.getD replacement

/-- The letters of bytes, of which the first `skip` are passed over. -/
def lettersFrom : Nat → List Char → List Letter
  | _, [] => []
  | skip + 1, _ :: rest => lettersFrom skip rest
  | 0, b :: rest =>
    let l := Letter.first b rest
    l :: lettersFrom (l.bytes.length - 1) rest

/-- The letters of a text. -/
def letters (s : String) : List Letter :=
  lettersFrom 0 s.toList

/-- The text that letters make. -/
def ofLetters (ls : List Letter) : String :=
  String.ofList (ls.flatMap (·.bytes))

/-- A letter holds the bytes it starts with. -/
theorem Letter.first_bytes (b : Char) (rest : List Char) :
    (Letter.first b rest).bytes = b :: rest.take ((Letter.first b rest).bytes.length - 1) := by
  unfold Letter.first
  split
  · simp
  · simp

theorem flatMap_lettersFrom (skip : Nat) (cs : List Char) :
    (lettersFrom skip cs).flatMap (·.bytes) = cs.drop skip := by
  fun_induction lettersFrom skip cs with
  | case1 => simp
  | case2 skip _ rest ih => simpa using ih
  | case3 b rest l ih =>
    have h : l.bytes = b :: rest.take (l.bytes.length - 1) := Letter.first_bytes b rest
    generalize l.bytes.length - 1 = count at h ih
    simp [ih, h]

/-- Cutting a text into letters loses nothing. -/
theorem ofLetters_letters (s : String) : ofLetters (letters s) = s := by
  simp [ofLetters, letters, flatMap_lettersFrom]

/-- The text that spells characters. -/
def ofChars (cs : List Char) : String :=
  String.ofList (cs.flatMap spelling)

/-- The text that spells the characters of a string. -/
def encode (s : String) : String :=
  ofChars s.toList

/-- The characters that show a text. -/
def decode (s : String) : String :=
  String.ofList ((letters s).map (·.shown))

/-- Whether a text has no stray byte. -/
def isSpelling (s : String) : Bool :=
  (letters s).all (·.char?.isSome)

end LispShell.Text
