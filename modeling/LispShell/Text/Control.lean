/-
Characters that steer rather than show: controls, format characters and
private use. A line editor refuses a prompt that holds one, because it
could not tell how wide the prompt is.
-/
import LispShell.Text.Range

namespace LispShell.Text

/-- Controls, format characters and private-use characters. -/
def controlRanges : List Range := [
  ⟨0x0, 0x1f⟩, ⟨0x7f, 0x9f⟩, ⟨0xad, 0xad⟩, ⟨0x600, 0x605⟩, ⟨0x61c, 0x61c⟩, ⟨0x6dd, 0x6dd⟩,
  ⟨0x70f, 0x70f⟩, ⟨0x890, 0x891⟩, ⟨0x8e2, 0x8e2⟩, ⟨0x180e, 0x180e⟩, ⟨0x200b, 0x200f⟩,
  ⟨0x202a, 0x202e⟩, ⟨0x2060, 0x2064⟩, ⟨0x2066, 0x206f⟩, ⟨0xd800, 0xf8ff⟩, ⟨0xfeff, 0xfeff⟩,
  ⟨0xfff9, 0xfffb⟩, ⟨0x110bd, 0x110bd⟩, ⟨0x110cd, 0x110cd⟩, ⟨0x13430, 0x1343f⟩,
  ⟨0x1bca0, 0x1bca3⟩, ⟨0x1d173, 0x1d17a⟩, ⟨0xe0001, 0xe0001⟩, ⟨0xe0020, 0xe007f⟩,
  ⟨0xf0000, 0xffffd⟩, ⟨0x100000, 0x10fffd⟩]

/-- Whether the character is a control, a format or a private-use
character. -/
def isControl (c : Char) : Bool :=
  controlRanges.any (·.holds c)

end LispShell.Text
