import Passwise.Linear.Solver
import Passwise.Literal
import Passwise.Scalar.Double
import Passwise.Word

set_option autoImplicit false

namespace Passwise

inductive Numeral where
  | real (x : Float)
  | whole (n : Int)
  | flag (b : Bool)
  | other (given : Literal)

namespace Numeral

def ofLiteral : Literal → Numeral
  | .real x => real x
  | .whole n => whole n
  | .flag b => flag b
  | given => other given

def toLiteral : Numeral → Literal
  | real x => .real x
  | whole n => .whole n
  | flag b => .flag b
  | other given => given

def value : Numeral → Float
  | real x => x
  | whole n => Float.ofInt n
  | flag b => if b then 1 else 0
  | other given => given.toReal.toOption.getD (0 / 0)

def whole? : Numeral → Option Int
  | whole n => some n
  | flag b => some (if b then 1 else 0)
  | real _ | other _ => none

def combine (wholes : Int → Int → Int) (reals : Float → Float → Float) (x y : Numeral) : Numeral :=
  match x.whole?, y.whole? with
  | some m, some n => whole (wholes m n)
  | _, _ => real (reals x.value y.value)

def operand : Numeral → Except Error Numeral
  | other _ => .error .wrongType
  | whole n => do
    let _ ← Literal.floatOfInt n
    return whole n
  | x => .ok x

def factor : Numeral → Except Error Numeral
  | other _ => .error .wrongType
  | whole n => if Word.fits n then .ok (whole n) else .error .overflow
  | x => .ok x

def row (xs : List Numeral) : Except Error (List Numeral) := do
  let (sizes, values) ← (Literal.list (xs.map toLiteral)).toTensor
  if sizes.length = 1 then return values.map real else throw .shape

instance : LT Numeral := ⟨fun x y => x.value < y.value⟩
instance : LE Numeral := ⟨fun x y => x.value ≤ y.value⟩

instance : Scalar Numeral where
  zero := real 0
  one := real 1
  add := combine (· + ·) (· + ·)
  sub := combine (· - ·) (· - ·)
  mul := combine (· * ·) (· * ·)
  div x y := real (x.value / y.value)
  neg x := real (-x.value)
  beq x y := x.value == y.value
  decidableLT x y := inferInstanceAs (Decidable (x.value < y.value))
  decidableLE x y := inferInstanceAs (Decidable (x.value ≤ y.value))
  ofInt := whole
  truncate x := Scalar.truncate x.value
  isFinite x := x.value.isFinite
  isNaN x := x.value.isNaN
  missing := real (0 / 0)
  plain x := real x.value
  measure x := real <$> x.toLiteral.toReal
  operand := operand
  factor := factor
  row := row
  sqrt x := real x.value.sqrt
  exp x := real x.value.exp
  log x := real x.value.log
  power x n := real (Scalar.power x.value n)
  softplus x := real (Double.softplus x.value)
  sigmoid x := real (Double.sigmoid x.value)
  erfc x := real (Double.erfc x.value)
  render
    | other given => given.plainText
    | x => Decimal.render x.value
  renderBrief x := Decimal.renderBrief x.value

instance : DenseSolver Numeral where
  condition := Rotation.condition
  solve := Elimination.solve
  inverse := Elimination.inverse

def vector (given : Literal) : Except Error (Vec Numeral) := do
  return (← given.toVector).map real

end Numeral

end Passwise
