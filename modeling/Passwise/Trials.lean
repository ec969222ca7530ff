import Passwise.Incremental
import Passwise.Search

set_option autoImplicit false

namespace Passwise

variable {α : Type} [Scalar α]

structure Trials (α : Type) [Scalar α] where
  task : Task α
  stepsizes : List α
  trials : List (Incremental α)

namespace Trials

def make (task : Task α) (stepsizes : List α) (previous : Option (Snapshot α)) :
    Except Error (Trials α) :=
  if stepsizes.isEmpty then .error .noTrials
  else do
    let trials ← stepsizes.mapM fun s => do
      Incremental.ofOrigin ⟨← task.withStepsize s, previous⟩
    return ⟨task, stepsizes, trials⟩

def start (t : Trials α) : Except Error (List (PassState α)) := t.trials.mapM (·.machine.start)

def absorb (t : Trials α) (e : Example α) : Update (List (PassState α)) Unit :=
  Update.each fun k =>
    match t.trials[k]? with
    | none => pure ()
    | some trial => do
      Update.ofExcept (trial.machine.accepts e)
      trial.machine.absorb e

def join (t : Trials α) (left right : List (PassState α)) : Except Error (List (PassState α)) :=
  (t.trials.zip (left.zip right)).mapM fun (trial, a, b) => trial.machine.join a b

def result (t : Trials α) (states : List (PassState α)) :
    Except Error (Option (List (Snapshot α))) := do
  let snapshots ← (t.trials.zip states).mapM fun (trial, state) => trial.machine.result state
  return snapshots.mapM id

def machine (t : Trials α) : Machine α (List (PassState α)) (List (Snapshot α)) :=
  ⟨fun _ => .ok (), t.start, t.absorb, t.join, t.result⟩

def search (t : Trials α) (snapshots : List (Snapshot α)) : Except Error (Search α) :=
  Search.make t.task (snapshots.map (·.model)) (some t.stepsizes)

end Trials

def leastLoss? (snapshots : List (Option (Snapshot α))) : Option (Nat × Snapshot α) :=
  snapshots.zipIdx.foldl (fun best (entry, i) =>
    match entry with
    | none => best
    | some snapshot =>
      match best with
      | none => some (i, snapshot)
      | some (_, least) => if snapshot.loss < least.loss then some (i, snapshot) else best) none

end Passwise
