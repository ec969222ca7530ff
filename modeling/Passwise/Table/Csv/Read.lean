import Passwise.Table
import Passwise.Table.Csv.Field
import Passwise.Table.Csv.Header
import Passwise.Table.Csv.Scan

set_option autoImplicit false

namespace Passwise.Csv

def read (text : String) : Except Error Table := do
  -- The first row may be wider than the names: its extra leading fields are labels of rows and are
  -- dropped. No later row may be wider, and fields that a row lacks are empty.
  match ← scan text with
  | [] => throw .noContent
  | header :: rows =>
    let width := max header.length ((rows.head?.map List.length).getD 0)
    if rows.any fun row => width < row.length then throw .raggedTable
    let offset := width - header.length
    let columns := (List.range header.length).map fun i =>
      readColumn (rows.map fun row => row[offset + i]?.getD "")
    return .ofColumns (distinctNames header) rows.length columns

end Passwise.Csv
