import Passwise.Table.Column

set_option autoImplicit false

namespace Passwise

structure Table where
  names : List String
  rows : List (List Cell)

abbrev Record := List (String × Cell)

namespace Table

def namesOf (records : List Record) : List String :=
  records.foldl (fun names record =>
    record.foldl (fun names (name, _) => if names.contains name then names else names ++ [name])
      names) []

def align (records : List Record) : Table :=
  let names := namesOf records
  ⟨names, records.map fun record => names.map fun name => (record.lookup name).getD (.real (0 / 0))⟩

def records (t : Table) : List Record := t.rows.map fun row => t.names.zip row

def index? (t : Table) (name : String) : Option Nat := t.names.idxOf? name

def has (t : Table) (name : String) : Bool := t.names.contains name

def index (t : Table) (name : String) : Except Error Nat :=
  match t.index? name with
  | some i => .ok i
  | none => .error .missingKey

def cell (row : List Cell) (i : Nat) : Cell := row[i]?.getD .missing

def columnAt (t : Table) (i : Nat) : List Cell := t.rows.map (cell · i)

def column? (t : Table) (name : String) : Option (List Cell) := (t.index? name).map t.columnAt

def columns (t : Table) : List (List Cell) := (List.range t.names.length).map t.columnAt

def ofColumns (names : List String) (count : Nat) (columns : List (List Cell)) : Table :=
  ⟨names, (List.range count).map fun i => columns.map fun column => cell column i⟩

def ofRecords (records : List Record) : Except Error Table := do
  let t := align records
  return ofColumns t.names t.rows.length (← t.columns.mapM Column.settle)

def setColumn (t : Table) (name : String) (cells : List Cell) : Table :=
  match t.index? name with
  | some i => { t with rows := List.zipWith (fun row c => row.set i c) t.rows cells }
  | none => ⟨t.names ++ [name], List.zipWith (fun row c => row ++ [c]) t.rows cells⟩

def concat (tables : List Table) : Table :=
  let names := tables.foldl (fun names t => names ++ t.names.filter (!names.contains ·)) []
  let column (name : String) : List Cell :=
    Column.join (tables.map fun t => (t.rows.length, t.column? name))
  ofColumns names (tables.flatMap (·.rows)).length (names.map column)

def plain (t : Table) : Except Error Table := do
  return { t with rows := ← t.rows.mapM fun row => row.mapM Cell.plain }

end Table

end Passwise
