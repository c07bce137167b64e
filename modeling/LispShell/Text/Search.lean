/-
Finding, splitting, joining and replacing pieces of text.

Text is searched from the left, and pieces that were found do not
overlap. The empty piece is found before every letter and at the end;
splitting at it gives the single letters.
-/
import LispShell.Text.Letter

namespace LispShell.Text

/-- The texts one after the other, `sep` between neighbours. -/
def join (sep : String) : List String → String
  | [] => ""
  | [s] => s
  | s :: rest => s ++ sep ++ join sep rest

/-- Whether `piece` stands at the start of the text. -/
def startsWith (s piece : String) : Bool :=
  piece.toList.isPrefixOf s.toList

/-- Whether `piece` stands at the end of the text. -/
def endsWith (s piece : String) : Bool :=
  piece.toList.isSuffixOf s.toList

/-- Where `piece` first stands in a list of bytes, counted from
`start`. -/
def offsetFrom (piece : List Char) (start : Nat) : List Char → Option Nat
  | [] => if piece.isEmpty then some start else none
  | c :: cs =>
    if piece.isPrefixOf (c :: cs) then some start
    else offsetFrom piece (start + 1) cs

/-- The offset in bytes of the first place where `piece` stands. -/
def offset? (s piece : String) : Option Nat :=
  offsetFrom piece.toList 0 s.toList

/-- Whether `piece` stands somewhere in the text. -/
def contains (s piece : String) : Bool :=
  (offset? s piece).isSome

/-- Cuts a list of bytes wherever `sep` stands. `part` holds the bytes
since the last cut, last first, and `skip` how many bytes of the separator
just found are still to be passed over. -/
def splitFrom (sep : List Char) (skip : Nat) (part : List Char) : List Char → List String
  | [] => [String.ofList part.reverse]
  | c :: cs =>
    match skip with
    | k + 1 => splitFrom sep k part cs
    | 0 =>
      if sep.isPrefixOf (c :: cs) then
        String.ofList part.reverse :: splitFrom sep (sep.length - 1) [] cs
      else splitFrom sep 0 (c :: part) cs

/-- The parts of the text between the places where `sep` stands; the
single letters if `sep` is empty. -/
def split (s sep : String) : List String :=
  if sep.isEmpty then (letters s).map (·.text)
  else splitFrom sep.toList 0 [] s.toList

/-- Puts `new` wherever `old` stands in a list of bytes. `written` holds the
bytes that are done with, last first, and `skip` how many bytes of the piece
just found are still to be passed over. -/
def replaceFrom (old new : List Char) (skip : Nat) (written : List Char) :
    List Char → List Char
  | [] => written.reverse
  | c :: cs =>
    match skip with
    | k + 1 => replaceFrom old new k written cs
    | 0 =>
      if old.isPrefixOf (c :: cs) then
        replaceFrom old new (old.length - 1) (new.reverse ++ written) cs
      else replaceFrom old new 0 (c :: written) cs

/-- The text with `new` in every place where `old` stands. -/
def replace (s old new : String) : String :=
  if old.isEmpty then
    new ++ String.join ((letters s).map fun l => l.text ++ new)
  else String.ofList (replaceFrom old.toList new.toList 0 [] s.toList)

/-- `n` copies of the text, one after the other. -/
def copies (s : String) (n : Nat) : String :=
  String.join (List.replicate n s)

/-- The text before the first `c` and the text after it; all of it and
nothing if there is none. -/
def cut (s : String) (c : Char) : String × String :=
  let cs := s.toList
  (String.ofList (cs.takeWhile (· != c)), String.ofList ((cs.dropWhile (· != c)).drop 1))

/-- The text without the characters `c` at its end. -/
def dropRight (s : String) (c : Char) : String :=
  String.ofList (s.toList.reverse.dropWhile (· == c)).reverse

end LispShell.Text
