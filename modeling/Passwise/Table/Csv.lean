import Passwise.Table

set_option autoImplicit false

namespace Passwise.Csv

def needsQuotes (s : String) : Bool := s.toList.any fun c => c == ',' || c == '"' || c == '\n'

def writeText (s : String) : String :=
  if needsQuotes s then
    let doubled := s.toList.flatMap fun c => if c = '"' then ['"', '"'] else [c]
    String.ofList ('"' :: doubled ++ ['"'])
  else s

def writeCell : Cell → String
  | .missing => ""
  | .flag b => if b then "True" else "False"
  | .whole n => toString n
  | .real x => if x.isNaN then "" else Decimal.render x
  | .text s => writeText s
  | .collection given => writeText given.render

def writeLine (fields : List String) : String := ",".intercalate fields ++ "\n"

def write (t : Table) : String :=
  writeLine (t.names.map writeText) ++
    String.join (t.rows.map fun row => writeLine (row.map writeCell))

def lineFeeds : List Char → List Char
  | '\r' :: '\n' :: rest => '\n' :: lineFeeds rest
  | '\r' :: rest => '\n' :: lineFeeds rest
  | c :: rest => c :: lineFeeds rest
  | [] => []

def unifyLines (text : String) : String := String.ofList (lineFeeds text.toList)

end Passwise.Csv
