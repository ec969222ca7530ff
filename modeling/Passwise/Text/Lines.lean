import Passwise.Text.Digit

set_option autoImplicit false

namespace Passwise.Text

def isLineBreak (c : Char) : Bool :=
  let n := c.toNat
  (0xA ≤ n && n ≤ 0xD) || (0x1C ≤ n && n ≤ 0x1E) || n == 0x85 || n == 0x2028 || n == 0x2029

def lastLine (text : String) : String :=
  let backwards := (trim text.toList).reverse
  String.ofList (backwards.takeWhile (!isLineBreak ·)).reverse

end Passwise.Text
