import Passwise.Run
import Passwise.Store

set_option autoImplicit false

namespace Passwise

variable {α : Type} [Scalar α]

structure Entry (α : Type) where
  iteration : Nat
  loss : α
  gradientNorm : Option α
  stepsize : Option α
  rows : α
  lossPerRow : α
  change : Option α
  passes : Nat
  condition : Option α
  deriving DecidableEq, Repr

-- What a run has done so far. It stays also when the run stops with an error.
structure Progress (α : Type) [Scalar α] where
  passes : Nat
  shuffles : Nat
  store : Store α
  directory : Directory α
  log : List (Entry α)

def Progress.fresh (durable : Bool) : Progress α := ⟨0, 0, .empty durable, [], []⟩

namespace Progress

def record (k passesBefore : Nat) (s resumed : Snapshot α) (stepsize : Option α)
    (baseline : Option (Snapshot α)) : Update (Progress α) (Option α) := do
  Update.onPart (fun p : Progress α => (p.store, p.directory))
    (fun (store, directory) p => { p with store := store, directory := directory })
    (Store.put (.ofInt k) (some resumed))
  let change ← Update.ofExcept (relativeChange (some s) baseline)
  let lossPerRow ← Update.ofExcept s.lossPerRow
  modify fun p => { p with
    log := p.log ++ [{
      iteration := k
      loss := s.loss
      gradientNorm := s.gradientNorm
      stepsize := stepsize
      rows := s.rows
      lossPerRow := lossPerRow
      change := change
      passes := p.passes - passesBefore
      condition := s.condition }] }
  return change

end Progress

end Passwise
