import Passwise.Text.Printable

set_option autoImplicit false

namespace Passwise.Text

def hexadecimal (width n : Nat) : String :=
  let digits := Nat.toDigits 16 n
  String.ofList (List.replicate (width - digits.length) '0' ++ digits)

def escape (quote c : Char) : String :=
  if c = quote || c = '\\' then String.ofList ['\\', c]
  else if c = '\n' then "\\n"
  else if c = '\r' then "\\r"
  else if c = '\t' then "\\t"
  else if isPrintable c then String.ofList [c]
  else if c.toNat < 0x100 then "\\x" ++ hexadecimal 2 c.toNat
  else if c.toNat < 0x10000 then "\\u" ++ hexadecimal 4 c.toNat
  else "\\U" ++ hexadecimal 8 c.toNat

def quote (text : String) : String :=
  let cs := text.toList
  let mark := if cs.contains '\'' && !cs.contains '"' then '"' else '\''
  String.ofList [mark] ++ String.join (cs.map (escape mark)) ++ String.ofList [mark]

end Passwise.Text
