import Passwise.Files
import Passwise.Table.Csv.Read

set_option autoImplicit false

namespace Passwise.Archive

structure Experiment where
  objective : Literal
  dataset : Literal
  rows : Literal
  dimension : Literal

def baseName (e : Experiment) (method : Literal) (dataSeed : String) (seed : Literal) : String :=
  let task := s!"{e.objective.plainText}_{method.plainText}_{e.dataset.plainText}"
  let size := s!"m{e.rows.plainText}_d{e.dimension.plainText}"
  s!"{task}_{size}_dataseed{dataSeed}_seed{seed.plainText}"

def pattern (e : Experiment) (method seed : Literal) : String := baseName e method "*" seed ++ ".csv"

def firstMatch? (files : Files) (folder : List String) (p : Place) (pattern : String) :
    Except Error (Option Place) := do
  let hits := files.select (← Files.patternParts pattern) p
  let paths := hits.map fun (names, hit) => ("/".intercalate (folder ++ names), hit)
  return ((paths.mergeSort fun a b => !(b.1 < a.1)).head?).map (·.2)

def labels (given : Literal) (rows : Nat) : Except Error (List Cell) :=
  match given with
  | .list items => if items.length = rows then .ok (items.map .ofLiteral) else .error .badValue
  | .fields _ => .ok (List.replicate rows .missing)
  | given => .ok (List.replicate rows (.ofLiteral given))

def history? (files : Files) (folder : List String) (p : Place) (e : Experiment)
    (method seed : Literal) : Except Error (Option Table) := do
  match ← firstMatch? files folder p (pattern e method seed) with
  | none => return none
  | some hit =>
    let t ← Csv.read (← files.read hit)
    let t := t.setColumn "seed" (← labels seed t.rows.length)
    return some (t.setColumn "method" (← labels method t.rows.length))

def load (files : Files) (folder : Literal) (e : Experiment) (seeds methods : Literal) :
    Except Error Table := do
  let .text folder := folder | throw .wrongType
  let some p := files.place? folder | throw (.noFolder (normalizePath folder))
  let wanted ← (← seeds.toItems).mapM fun seed =>
    return (← methods.toItems).map fun method => (method, seed)
  let found ← wanted.flatten.mapM fun (method, seed) =>
    history? files (pathParts folder) p e method seed
  if (found.filterMap id).isEmpty then
    throw (.noRuns (wanted.flatten.map fun (method, seed) => pattern e method seed))
  return Table.concat (found.filterMap id)

end Passwise.Archive
