import Passwise.Literal
import Passwise.Store

set_option autoImplicit false

namespace Passwise

namespace Store.Key

def ofLiteral (given : Literal) : Except Error Key :=
  match given with
  | .whole n => .ok (.ofInt n)
  | .flag b => .ok { Key.ofInt (if b then 1 else 0) with shown := given.render }
  | .real x =>
    let n := (Literal.intOfFloat x).toOption.filter fun n => Float.ofInt n == x
    .ok ⟨n, given.render, .error .badValue⟩
  | .text _ => .ok ⟨none, given.render, .error .badValue⟩
  | .null => .ok ⟨none, given.render, .error .wrongType⟩
  | .list _ | .fields _ => .error .wrongType

end Store.Key

end Passwise
