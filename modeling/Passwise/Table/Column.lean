import Passwise.Table.Cell
import Passwise.Word

set_option autoImplicit false

namespace Passwise

inductive Kind where
  | flags
  | whole
  | unsigned
  | real
  | mixed
  deriving DecidableEq, Repr

namespace Column

def isSigned : Cell → Bool
  | .whole n => Word.fitsSigned n
  | _ => false

def isUnsigned : Cell → Bool
  | .whole n => Word.fitsUnsigned n
  | _ => false

def isReal : Cell → Bool
  | .real _ | .missing => true
  | _ => false

def kind (cells : List Cell) : Kind :=
  if cells.isEmpty then .mixed
  else if cells.all Cell.isFlag then .flags
  else if cells.all isSigned then .whole
  else if cells.all isUnsigned then .unsigned
  else if cells.all isReal then .real
  else .mixed

def toReals (cells : List Cell) : List Cell := cells.map fun c => .ofNumber? c.number?

def toWholes (cells : List Cell) : List Cell := cells.map fun c =>
  match c with
  | .flag b => .whole (if b then 1 else 0)
  | c => c

structure Survey where
  nothing : Bool := false
  gap : Bool := false
  flag : Bool := false
  whole : Bool := false
  real : Bool := false
  negative : Bool := false
  large : Bool := false
  deriving DecidableEq, Repr

def survey (seen : Survey) : List Cell → Except Error (Option Survey)
  -- There is no common kind once a cell is no number, or a whole number does not fit with those
  -- before it; that is not checked after a place where nothing was given.
  | [] => .ok (some seen)
  | .missing :: rest => survey { seen with nothing := true } rest
  | .flag _ :: rest => survey { seen with flag := true } rest
  | .real x :: rest =>
    survey (if x.isNaN then { seen with gap := true } else { seen with real := true }) rest
  | .whole n :: rest => do
    let _ ← Literal.floatOfInt n
    let seen := { seen with whole := true }
    if seen.nothing then survey seen rest
    else
      let negative := seen.negative || decide (n < 0)
      let large := seen.large || !Word.fitsSigned n
      if (negative && large) || !Word.fits n then return none
      else survey { seen with negative := negative, large := large } rest
  | .text _ :: _ | .collection _ :: _ => .ok none

def settle (cells : List Cell) : Except Error (List Cell) := do
  let some seen ← survey {} cells | return cells
  let gaps := seen.nothing || seen.gap
  return if !seen.flag && (seen.real || (seen.whole && gaps)) then toReals cells else cells

def join (columns : List (Nat × Option (List Cell))) : List Cell :=
  -- A table that lacks the column gives missing cells. Flags become numbers only where no column is
  -- missing and all are of the kind of the first one, flags or whole numbers.
  let kinds := columns.filterMap fun (_, cells) => cells.map kind
  let everywhere := columns.all fun (_, cells) => cells.isSome
  let alike := match kinds with
    | [] => true
    | first :: rest => rest.all fun k => k == first || k == .flags || k == .whole || k == .unsigned
  let cells := columns.flatMap fun (count, cells) => cells.getD (List.replicate count .missing)
  let asGiven := kinds.contains .mixed || kinds.all (· == .flags) ||
    (kinds.contains .flags && !(everywhere && alike))
  let real := !everywhere || kinds.contains .real ||
    (kinds.contains .whole && kinds.contains .unsigned)
  if asGiven then cells else if real then toReals cells else toWholes cells

end Column

end Passwise
