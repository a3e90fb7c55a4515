import Mathlib.Data.List.Basic

/-!
# Text

What a program reads off a string: its UTF-8 bytes, whose order is the
order of strings, and the class of a character.
-/

namespace DaemonEye.Str

def asBytes (s : String) : List UInt8 := s.toUTF8.data.toList

def cmp (a b : String) : Ordering := compare (asBytes a) (asBytes b)

/-- The four ranges of ASCII around the digits and the letters. -/
def isAsciiPunctuation (c : Char) : Bool :=
  let n := c.toNat
  (33 ≤ n && n ≤ 47) || (58 ≤ n && n ≤ 64) || (91 ≤ n && n ≤ 96) || (123 ≤ n && n ≤ 126)

end DaemonEye.Str
