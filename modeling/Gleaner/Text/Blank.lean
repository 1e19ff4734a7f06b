/-
White space: the characters with the Unicode property of that name. A text is blank when it holds nothing else.
-/

namespace Gleaner.Text

def isSpace (c : Char) : Bool :=
  let n := c.toNat
  (9 ≤ n && n ≤ 13) || n == 0x20 || n == 0x85 || n == 0xA0 || n == 0x1680 || (0x2000 ≤ n && n ≤ 0x200A) ||
    n == 0x2028 || n == 0x2029 || n == 0x202F || n == 0x205F || n == 0x3000

/-- empty or nothing but white space -/
def isBlank (s : String) : Bool := s.toList.all isSpace

end Gleaner.Text
