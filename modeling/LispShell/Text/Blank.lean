/-
Blank characters and the operations that cut text at them.
-/
import LispShell.Text.Letter

namespace LispShell.Text

/-- Whether the character is white space: the ASCII blanks, the no-break
space and the other spaces and line breaks of the world's scripts. -/
def isBlank (c : Char) : Bool :=
  let n := c.toNat
  (0x09 ≤ n && n ≤ 0x0d) || n == 0x20 || n == 0x85 || n == 0xa0 || n == 0x1680
    || (0x2000 ≤ n && n ≤ 0x200a) || n == 0x2028 || n == 0x2029 || n == 0x202f
    || n == 0x205f || n == 0x3000

/-- Whether the letter is white space. -/
def Letter.isBlank (l : Letter) : Bool :=
  Text.isBlank l.shown

/-- The letters left after blanks are dropped at both ends. -/
def trimLetters (ls : List Letter) : List Letter :=
  ((ls.dropWhile Letter.isBlank).reverse.dropWhile Letter.isBlank).reverse

/-- The text without the blanks at its two ends. -/
def trim (s : String) : String :=
  ofLetters (trimLetters (letters s))

/-- Cuts a list of letters at its blanks. `word` holds the letters of the
word being read, last first. -/
def wordsFrom (word : List Letter) : List Letter → List String
  | [] => if word.isEmpty then [] else [ofLetters word.reverse]
  | l :: ls =>
    if l.isBlank then
      if word.isEmpty then wordsFrom [] ls
      else ofLetters word.reverse :: wordsFrom [] ls
    else wordsFrom (l :: word) ls

/-- The maximal runs of letters that are not blank. -/
def words (s : String) : List String :=
  wordsFrom [] (letters s)

end LispShell.Text
