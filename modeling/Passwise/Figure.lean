import Passwise.Report
import Passwise.Table.Csv

set_option autoImplicit false

namespace Passwise

structure Line where
  x : List Cell
  y : List Cell
  alpha : Float

structure Figure where
  path : String
  title : String
  xLabel : String
  yLabel : String
  yScale : String
  legend : List String
  lines : List Line

namespace Figure

def floor : Float := 1e-12

def methodLabel (method : Cell) : String :=
  match method with
  | .text "igd" => "IGD"
  | .text "cg" => "Conjugate gradient"
  | .text "newton" => "Newton"
  | .text name => name
  | cell => Csv.writeCell cell

def clampCell (c : Cell) : Cell := .real (Report.raiseTo floor (c.number?.getD (0 / 0)))

def lineOf (x y : Nat) (several : Bool) (run : List (List Cell)) : Line :=
  let sorted := run.mergeSort fun a b => (Table.cell a x).notAfter (Table.cell b x)
  { x := sorted.map (Table.cell · x)
    y := sorted.map fun row => clampCell (Table.cell row y)
    alpha := if several then 0.35 else 1.0 }

def byMethod (runs : List (Cell × Cell × List (List Cell))) :
    List (Cell × List (List (List Cell))) :=
  runs.foldl (fun groups (method, _, run) =>
    match groups.getLast? with
    | some (last, members) =>
      if last.same method then groups.dropLast ++ [(last, members ++ [run])]
      else groups ++ [(method, [run])]
    | none => [(method, [run])]) []

def draw (t : Table) (path title xLabel yLabel xColumn yColumn : String) :
    Except Error Figure := do
  let x ← t.index xColumn
  let y ← t.index yColumn
  let methods := byMethod (← Report.runsOf t)
  return {
    path := path
    title := title
    xLabel := xLabel
    yLabel := yLabel
    yScale := "log"
    legend := (methods.map fun (method, _) => methodLabel method).filter (!·.startsWith "_")
    lines := methods.flatMap fun (_, runs) => runs.map (lineOf x y (1 < runs.length)) }

structure Gallery where
  figures : List Figure
  tables : List (String × Table)

def Gallery.empty : Gallery := ⟨[], []⟩

def joinPath (folder name : String) : String :=
  if folder.isEmpty || folder.endsWith "/" || name.startsWith "/" then
    if name.startsWith "/" then name else folder ++ name
  else folder ++ "/" ++ name

def addFigure (figure : Except Error Figure) : Update Gallery Unit := do
  let figure ← Update.ofExcept figure
  modify fun g => { g with figures := g.figures ++ [figure] }

def addTable (path : String) (table : Except Error Table) : Update Gallery Unit := do
  let table ← Update.ofExcept table
  modify fun g => { g with tables := g.tables ++ [(path, table)] }

def gallery (t : Table) (folder title : String) (targets : List Float) :
    Update Gallery Unit := do
  let t ← Update.ofExcept (Report.clean t)
  let _ ← Update.ofExcept (t.index "loss")
  let loss := "Loss (log scale)"
  addFigure (draw t (joinPath folder "loss_vs_iter.png") (title ++ ": Loss") "Iter" loss
    "iter" "loss")
  addFigure (draw t (joinPath folder "loss_vs_passes.png") (title ++ ": Loss") "Cum Passes" loss
    "cum_passes" "loss")
  let distance ← Update.ofExcept (t.index "distance")
  let moved := t.rows.filter fun row => !(Table.cell row distance).isMissing
  if !moved.isEmpty then
    addFigure (draw { t with rows := moved } (joinPath folder "distance_vs_iter.png")
      (title ++ ": Relative loss change") "Iter" "Distance (log scale)" "iter" "distance")
  addTable (joinPath folder "final_metrics.csv") (Report.endpoints t)
  if !targets.isEmpty then
    addTable (joinPath folder "passes_to_target.csv")
      ((targets.mapM fun target => Report.firstReached t (.real target)).map Table.concat)

end Figure

end Passwise
