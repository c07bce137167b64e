/-
The quoted form of a text: between double quotes, on one line, with
everything that cannot be shown as itself written as an escape.

A double quote and a backslash get a backslash in front, seven controls
have letters of their own (`\a \b \f \n \r \t \v`), the other ASCII
controls and stray bytes are written `\xNN`, and the rest of what is not
printable is written `\uNNNN` or, past four hexadecimal digits,
`\UNNNNNNNN`.
-/
import LispShell.Text.Letter
import LispShell.Text.Printable

namespace LispShell.Text

/-- The lower-case hexadecimal digits of `n`, `width` of them. -/
def hexDigits (width n : Nat) : List Char :=
  match width with
  | 0 => []
  | w + 1 => hexDigits w (n / 16) ++ [Nat.digitChar (n % 16)]

/-- How a character that is not printable is written. -/
def escapeChar (c : Char) : List Char :=
  match c.toNat with
  | 0x07 => ['\\', 'a']
  | 0x08 => ['\\', 'b']
  | 0x0c => ['\\', 'f']
  | 0x0a => ['\\', 'n']
  | 0x0d => ['\\', 'r']
  | 0x09 => ['\\', 't']
  | 0x0b => ['\\', 'v']
  | n =>
    if n < 0x20 || n == 0x7f then '\\' :: 'x' :: hexDigits 2 n
    else if n < 0x10000 then '\\' :: 'u' :: hexDigits 4 n
    else '\\' :: 'U' :: hexDigits 8 n

/-- How a stray byte is written. -/
def escapeByte (b : Char) : List Char :=
  '\\' :: 'x' :: hexDigits 2 b.toNat

/-- How one letter is written inside quotes. -/
def escapeLetter (l : Letter) : List Char :=
  match l.char? with
  | none => l.bytes.flatMap escapeByte
  | some c =>
    if c == '"' || c == '\\' then ['\\', c]
    else if isPrintable c then l.bytes
    else escapeChar c

/-- The text in double quotes, unprintable letters escaped. -/
def quote (s : String) : String :=
  String.ofList ('"' :: ((letters s).flatMap escapeLetter ++ ['"']))

end LispShell.Text
