import Passwise.Decimal.Plain
import Passwise.Table

set_option autoImplicit false

namespace Passwise.Report

def numericColumns : List String :=
  ["iter", "loss", "grad_norm", "alpha", "elapsed_sec", "rows", "distance", "passes"]

def numericCell : Cell → Except Error Cell
  | .flag b => .ok (.whole (if b then 1 else 0))
  | .whole n => do
    let _ ← Literal.floatOfInt n
    return .whole n
  | .real x => .ok (.ofNumber? (if x.isNaN then none else some x))
  | .text s =>
    let number := Decimal.PlainNumber.ofChars? s.toList
    if (number.any (·.isWhole)) && (number.bind (·.toFloat?)).isSome then
      .ok ((Decimal.readPlainWhole? s).elim .missing .whole)
    else .ok (.ofNumber? (Decimal.readPlainReal? s))
  | .missing | .collection _ => .ok .missing

def numericColumn (cells : List Cell) : Except Error (List Cell) := do
  if Column.kind cells != .mixed then return cells
  let numbers ← cells.mapM numericCell
  return match Column.kind numbers with
  | .whole | .unsigned => numbers
  | _ => Column.toReals numbers

def dropInfinite : Cell → Cell
  | .real x => if x.isInf then .missing else .real x
  | cell => cell

def coerce (t : Table) : Except Error Table := do
  let numeric ← numericColumns.foldlM (fun (t : Table) name =>
    match t.column? name with
    | some cells => return t.setColumn name (← numericColumn cells)
    | none => return t) t
  return { numeric with rows := numeric.rows.map (·.map dropInfinite) }

structure Keys where
  method : Nat
  seed : Nat
  iteration : Nat

namespace Keys

def runOf (k : Keys) (row : List Cell) : Cell × Cell := (Table.cell row k.method, Table.cell row k.seed)

def sameRun (k : Keys) (a b : List Cell) : Bool :=
  (Table.cell a k.method).same (Table.cell b k.method) &&
    (Table.cell a k.seed).same (Table.cell b k.seed)

def sameRow (k : Keys) (a b : List Cell) : Bool :=
  k.sameRun a b && (Table.cell a k.iteration).same (Table.cell b k.iteration)

def complete (k : Keys) (row : List Cell) : Bool :=
  [k.method, k.seed, k.iteration].all fun i => !(Table.cell row i).isMissing

def notAfter (k : Keys) (a b : List Cell) : Bool :=
  go [k.method, k.seed, k.iteration]
where
  go : List Nat → Bool
    | [] => true
    | i :: rest =>
      let x := Table.cell a i
      let y := Table.cell b i
      if x.notAfter y && y.notAfter x then go rest else x.notAfter y

end Keys

def lastOfEach (k : Keys) : List (List Cell) → List (List Cell)
  | a :: b :: rest => if k.sameRow a b then lastOfEach k (b :: rest) else a :: lastOfEach k (b :: rest)
  | rest => rest

def groups (same : List Cell → List Cell → Bool) : List (List Cell) → List (List (List Cell))
  | [] => []
  | row :: rest =>
    match groups same rest with
    | [] => [[row]]
    | [] :: others => [row] :: others
    | (next :: more) :: others =>
      if same row next then (row :: next :: more) :: others
      else [row] :: (next :: more) :: others

theorem flatten_groups (same : List Cell → List Cell → Bool) (rows : List (List Cell)) :
    (groups same rows).flatten = rows := by
  fun_induction groups same rows <;> simp_all

def addTo (kind : Kind) (total c : Cell) : Cell :=
  -- Whole numbers wrap around at the size of a word.
  match kind, total, c with
  | .whole, .whole m, .whole n => .whole (Int.bmod (m + n) Word.size)
  | .unsigned, .whole m, .whole n => .whole ((m + n) % Word.size)
  | _, _, _ => .real (total.number?.getD 0 + c.number?.getD 0)

def runningSums (kind : Kind) : Cell → List Cell → List Cell
  | _, [] => []
  | total, c :: rest =>
    if c.isMissing then .missing :: runningSums kind total rest
    else addTo kind total c :: runningSums kind (addTo kind total c) rest

def keysOf (t : Table) : Except Error Keys := do
  return { method := ← t.index "method", seed := ← t.index "seed", iteration := ← t.index "iter" }

def clean (t : Table) : Except Error Table := do
  -- Of rows with the same key the last one stays, and rows that lack a part of the key are left
  -- out.
  let t ← coerce t
  if !t.has "iter" then throw .noIterColumn
  let k ← keysOf t
  let rows := lastOfEach k ((t.rows.mergeSort k.notAfter).filter k.complete)
  let kind := Column.kind ((t.column? "passes").getD [])
  let t := { t with rows := rows }
  let t := if t.has "passes" then t else t.setColumn "passes" (rows.map fun _ => .real 1)
  let passes ← t.index "passes"
  let sums := (groups k.sameRun t.rows).flatMap fun run =>
    runningSums kind (.whole 0) (run.map (Table.cell · passes))
  return t.setColumn "cum_passes" sums

def representative (t : Table) (i : Nat) (c : Cell) : Cell :=
  ((t.columnAt i).find? (·.same c)).getD c

def runsOf (t : Table) : Except Error (List (Cell × Cell × List (List Cell))) := do
  let k ← keysOf t
  return (groups k.sameRun t.rows).filterMap fun run =>
    run.head?.map fun first =>
      (representative t k.method (Table.cell first k.method),
        representative t k.seed (Table.cell first k.seed), run)

def wholePart : Cell → Cell
  | .whole n => .whole n
  | c =>
    match c.number?.map Literal.intOfFloat with
    | some (.ok n) => .whole n
    | _ => .missing

def realPart (c : Cell) : Cell := .ofNumber? c.number?

def endpoints (t : Table) : Except Error Table := do
  let rows ← (← runsOf t).mapM fun (method, seed, run) => do
    let iteration ← t.index "iter"
    let loss ← t.index "loss"
    let passes ← t.index "cum_passes"
    let last := run.getLast?.getD []
    let losses := (run.map (Table.cell · loss)).filter (!·.isMissing)
    return [
        ("method", method), ("seed", seed), ("final_iter", wholePart (Table.cell last iteration)),
        ("final_loss", realPart (losses.getLast?.getD .missing)),
        ("total_passes", realPart (Table.cell last passes))
      ]
  Table.ofRecords rows

def bound? (rows : Nat) : Literal → Except Error (Option Float)
  | .null => .ok none
  | .text _ | .fields _ => .error .wrongType
  | .list items => .error (if items.length = rows then .wrongType else .badValue)
  | given => some <$> given.toReal

def firstReached (t : Table) (target : Literal) : Except Error Table := do
  let rows ← (← runsOf t).mapM fun (method, seed, run) => do
    let iteration ← t.index "iter"
    let loss ← t.index "loss"
    let passes ← t.index "cum_passes"
    let bound ← bound? run.length target
    let reaches (row : List Cell) : Bool :=
      (Table.cell row loss).number?.any fun x => bound.any fun bound => decide (x ≤ bound)
    let hit := run.find? reaches
    return [
        ("method", method), ("seed", seed), ("target", Cell.ofLiteral target),
        ("passes_to_target", hit.elim .missing fun row => realPart (Table.cell row passes)),
        ("iter_to_target", hit.elim .missing fun row => wholePart (Table.cell row iteration))
      ]
  Table.ofRecords rows

def raiseTo (floor x : Float) : Float := if x.isFinite && decide (floor < x) then x else floor

end Passwise.Report
