import Passwise.Conjugate
import Passwise.Incremental
import Passwise.Newton

set_option autoImplicit false

namespace Passwise

variable {α : Type} [Scalar α]

inductive Method where
  | incremental
  | conjugate
  | newton
  deriving DecidableEq, Repr

namespace Method

def all : List Method := [incremental, conjugate, newton]

def name : Method → String
  | incremental => Incremental.name
  | conjugate => Conjugate.name
  | newton => Newton.name

def ofName? (name : String) : Option Method := all.find? (·.name == name)

theorem ofName?_name (m : Method) : ofName? m.name = some m := by cases m <;> decide

def code : Method → Nat
  | incremental => 1
  | conjugate => 2
  | newton => 3

end Method

inductive Optimizer (α : Type) [Scalar α] where
  | incremental (i : Incremental α)
  | conjugate (c : Conjugate α)
  | newton (n : Newton α)

namespace Optimizer

def origin : Optimizer α → Origin α
  | incremental i => i.origin
  | conjugate c => c.origin
  | newton n => n.origin

def method : Optimizer α → Method
  | incremental _ => .incremental
  | conjugate _ => .conjugate
  | newton _ => .newton

def machine [DenseSolver α] : Optimizer α → Machine α (PassState α) (Snapshot α)
  | incremental i => i.machine
  | conjugate c => c.machine
  | newton n => n.machine

end Optimizer

end Passwise
