/-
Texts as literals in double quotes. Quotes, backslashes and the usual control characters have short escapes; characters
that cannot be seen, and marks that would join the character before them, are written as numbers.
-/
import Gleaner.Unicode.Property

namespace Gleaner.Text

/-- characters without a shape of their own -/
def invisible : CharSet :=
  CharSet.unionAll
    ((["c", "z"].filterMap Unicode.category?) ++ [Unicode.propertySet "graphemeextend"]) |>.diff (.ofChar ' '.toNat)

/-- hexadecimal digits in lower case -/
def hexText (n : Nat) : String := String.ofList (Nat.toDigits 16 n)

def literalChar (c : Char) : String :=
  match c with
  | '"' => "\\\""
  | '\\' => "\\\\"
  | '\n' => "\\n"
  | '\r' => "\\r"
  | '\t' => "\\t"
  | '\x00' => "\\0"
  | _ => if invisible.contains c.toNat then "\\u\x7b" ++ hexText c.toNat ++ "\x7d" else String.singleton c

def literal (s : String) : String := "\"" ++ String.join (s.toList.map literalChar) ++ "\""

end Gleaner.Text
