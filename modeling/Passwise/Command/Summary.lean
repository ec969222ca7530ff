import Passwise.Command.Fit
import Passwise.Figure
import Passwise.Table.Csv

set_option autoImplicit false

namespace Passwise.Command

def coefficientLines (e : Estimate Numeral) : List String :=
  let columns := e.columns.toOption.getD []
  let line (i : Nat) : String :=
    " ".intercalate (toString i :: columns.map fun (_, values) =>
      ((values[i]?).map fun (x : Numeral) => Decimal.render x.value).getD "")
  " ".intercalate (columns.map (·.1)) :: "feature" ::
    (List.range e.coefficients.length).map line

def summaryLines (s : Fit.Summary) : List String :=
  let loss := match s.outcome.snapshot with
    | some snapshot => Decimal.render snapshot.loss.value
    | none => "None"
  let head := s!"Done ({s.outcome.reason.name}, {s.outcome.iterations} iterations). Final loss: {loss}"
  match s.estimate with
  | none => [head]
  | some e =>
    let condition := match e.wald.bind (·.condition) with
      | some x => [s!"condition number: {Decimal.render x.value}"]
      | none => []
    head :: coefficientLines e ++ condition

def stateText (cells : List Numeral) : String :=
  String.join (cells.map fun x => Decimal.render x.value ++ "\n")

def pointTable (f : Figure) : Table :=
  let rows := f.lines.zipIdx.flatMap fun (line, i) =>
    List.zipWith (fun x y => [Cell.whole i, x, y]) line.x line.y
  ⟨["line", "x", "y"], rows⟩

def errorText (e : Error) : String :=
  e.message.getD ((repr e).pretty.replace "Passwise.Error." "")

end Passwise.Command
