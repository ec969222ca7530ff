import Mathlib.Data.List.Induction
import Mathlib.Order.Basic
import Passwise.Run.Progress
import Passwise.Proofs.Update

set_option autoImplicit false

namespace Passwise

variable {α : Type} [Scalar α]

structure Step (α : Type) [Scalar α] where
  found : Snapshot α
  resumed : Snapshot α
  stepsize : Option α
  change : Option α
  lossPerRow : α
  passes : Nat

namespace Step

def entry (k : Nat) (step : Step α) : Entry α where
  iteration := k
  loss := step.found.loss
  gradientNorm := step.found.gradientNorm
  stepsize := step.stepsize
  rows := step.found.rows
  lossPerRow := step.lossPerRow
  change := step.change
  passes := step.passes
  condition := step.found.condition

def entries (k : Nat) : List (Step α) → List (Entry α)
  | [] => []
  | step :: rest => step.entry k :: entries (k + 1) rest

theorem getElem?_entries (k : Nat) (steps : List (Step α)) (i : Nat) :
    (entries k steps)[i]? = steps[i]?.map (entry (k + i)) := by
  induction steps generalizing k i with
  | nil => simp [entries]
  | cons step rest ih =>
    cases i with
    | zero => simp [entries]
    | succ i => simp [entries, ih, Nat.add_assoc, Nat.add_comm 1 i]

def seedAfter (seed : Option (Snapshot α)) : List (Step α) → Option (Snapshot α)
  | [] => seed
  | step :: rest => seedAfter (some step.resumed) rest

def baselineAfter (baseline : Option (Snapshot α)) : List (Step α) → Option (Snapshot α)
  | [] => baseline
  | step :: rest => baselineAfter (some step.found) rest

theorem seedAfter_snoc (seed : Option (Snapshot α)) (steps : List (Step α)) (last : Step α) :
    seedAfter seed (steps ++ [last]) = some last.resumed := by
  induction steps generalizing seed with
  | nil => rfl
  | cons step rest ih => exact ih (some step.resumed)

end Step

namespace Store

theorem lookup_keep_of_ne (store : Store α) {i j : Int} (other : i ≠ j)
    (entry : Option (Snapshot α)) : (store.keep j entry).kept.lookup i = store.kept.lookup i := by
  have apart : (i == j) = false := by simpa using other
  unfold keep
  split
  · induction store.kept with
    | nil => rfl
    | cons first rest ih =>
      obtain ⟨key, old⟩ := first
      by_cases here : i = key
      · have kept : key ≠ j := here ▸ other
        simp [here, kept]
      · have elsewhere : (i == key) = false := by simpa using here
        by_cases replaced : key = j
        · simp [replaced, List.lookup_cons, apart, ih]
        · simp [replaced, List.lookup_cons, elsewhere, ih]
  · simp [List.lookup_append, List.lookup_cons, apart]

theorem lookup_keep (store : Store α) (i j : Int) (entry : Option (Snapshot α)) :
    (store.keep j entry).kept.lookup i = if i = j then some entry else store.kept.lookup i := by
  split_ifs with same
  · rw [same, lookup_keep_self]
  · exact lookup_keep_of_ne store same entry

@[simp] theorem durable_keep (store : Store α) (i : Int) (entry : Option (Snapshot α)) :
    (store.keep i entry).durable = store.durable := by
  unfold keep
  split <;> rfl

def greater (best : Option (Int × Option (Snapshot α))) (entry : Int × Option (Snapshot α)) :
    Option (Int × Option (Snapshot α)) :=
  match best with
  | none => some entry
  | some greatest => if greatest.1 < entry.1 then some entry else best

theorem foldl_greater (kept : List (Int × Option (Snapshot α))) :
    (kept.foldl greater none = none ∧ kept = []) ∨
      ∃ i entry, kept.foldl greater none = some (i, entry) ∧ kept.lookup i = some entry ∧
        ∀ j, (kept.lookup j).isSome = true → j ≤ i := by
  induction kept using List.reverseRecOn with
  | nil => exact .inl ⟨rfl, rfl⟩
  | append_singleton kept last ih =>
    obtain ⟨k, entry⟩ := last
    have known (j : Int) : (kept ++ [(k, entry)]).lookup j =
        (kept.lookup j).or (if j = k then some entry else none) := by
      by_cases same : j = k
      · simp [List.lookup_append, same]
      · have apart : (j == k) = false := by simpa using same
        simp [List.lookup_append, List.lookup_cons, same, apart]
    have bounded {bound : Int} (own : k ≤ bound)
        (others : ∀ j, (kept.lookup j).isSome = true → j ≤ bound) (j : Int)
        (there : ((kept ++ [(k, entry)]).lookup j).isSome = true) : j ≤ bound := by
      by_cases same : j = k
      · exact same ▸ own
      · rw [known, if_neg same, Option.or_none] at there
        exact others j there
    right
    rw [List.foldl_append]
    rcases ih with ⟨none, rfl⟩ | ⟨i, best, found, here, top⟩
    · exact ⟨k, entry, rfl, by simp, bounded le_rfl (by simp)⟩
    · rw [found]
      by_cases above : i < k
      · have absent : kept.lookup k = none := by
          rw [← Option.not_isSome_iff_eq_none]
          exact fun there => above.not_ge (top k there)
        exact ⟨k, entry, if_pos above, by rw [known, absent, if_pos rfl, Option.none_or],
          bounded le_rfl fun j there => (top j there).trans above.le⟩
      · exact ⟨i, best, if_neg above, by rw [known, here, Option.some_or],
          bounded (not_lt.mp above) top⟩

theorem latest_cases (store : Store α) :
    (store.latest = none ∧ ∀ i, store.kept.lookup i = none) ∨
      ∃ i entry, store.latest = entry ∧ store.kept.lookup i = some entry ∧
        ∀ j, (store.kept.lookup j).isSome = true → j ≤ i := by
  change ((store.kept.foldl greater none).bind (·.2) = none ∧ _) ∨
    ∃ i entry, (store.kept.foldl greater none).bind (·.2) = entry ∧ _
  rcases foldl_greater store.kept with ⟨none, empty⟩ | ⟨i, entry, found, here, top⟩
  · exact .inl ⟨by rw [none]; rfl, fun i => by rw [empty]; rfl⟩
  · exact .inr ⟨i, entry, by rw [found]; rfl, here, top⟩

theorem run_put {key : Key} {k : Int} {name : String} (iteration : key.iteration = some k)
    (fileName : key.fileName = .ok name) (store : Store α) (files : Directory α) (s : Snapshot α) :
    (put key (some s)).run (store, files) =
      if store.durable then
        match s.toCells with
        | .ok cells => (.ok (), store.keep k (some s), files.write name cells)
        | .error cause => (.error cause, store.keep k (some s), files)
      else (.ok (), store.keep k (some s), files) := by
  unfold put place
  rw [Update.run_bind_ok (Update.run_modify _ _), Update.run_bind_ok (Update.run_get _)]
  rw [iteration, fileName, Option.elim_some]
  simp only [Option.elim_some, durable_keep]
  cases store.durable with
  | false => simp only [Bool.false_eq_true, if_false, Update.run_pure]
  | true =>
    simp only [if_true]
    rw [Update.run_bind_ok (Update.run_ofExcept _ _)]
    cases s.toCells with
    | error cause => rw [Update.run_bind_error (Update.run_ofExcept _ _)]
    | ok cells => rw [Update.run_bind_ok (Update.run_ofExcept _ _), Update.run_modify]

theorem put_ok {k : Int} {store : Store α} {files : Directory α} {s : Snapshot α}
    {kept : Store α × Directory α}
    (put : (put (.ofInt k) (some s)).run (store, files) = (.ok (), kept)) :
    kept.1 = store.keep k (some s) ∧ (store.durable = true → ∃ cells, s.toCells = .ok cells) := by
  rw [run_put (k := k) rfl rfl] at put
  cases durable : store.durable with
  | false =>
    rw [durable] at put
    cases put
    exact ⟨rfl, nofun⟩
  | true =>
    rw [durable, if_pos rfl] at put
    cases layout : s.toCells with
    | error cause =>
      rw [layout] at put
      cases put
    | ok cells =>
      rw [layout] at put
      cases put
      exact ⟨rfl, fun _ => ⟨cells, rfl⟩⟩

theorem put_of {k : Int} {store : Store α} (files : Directory α) {s : Snapshot α}
    (stored : store.durable = true → ∃ cells, s.toCells = .ok cells) :
    ∃ kept, (put (.ofInt k) (some s)).run (store, files) = (.ok (), kept) := by
  rw [run_put (k := k) rfl rfl]
  cases durable : store.durable with
  | false => exact ⟨_, rfl⟩
  | true =>
    obtain ⟨cells, layout⟩ := stored durable
    rw [if_pos rfl, layout]
    exact ⟨_, rfl⟩

end Store

namespace Progress

theorem record_ok {k before : Nat} {s resumed : Snapshot α} {stepsize : Option α}
    {baseline : Option (Snapshot α)} {p q : Progress α} {change : Option α}
    (recorded : (record k before s resumed stepsize baseline).run p = (.ok change, q)) :
    relativeChange (some s) baseline = .ok change ∧
    q.store = p.store.keep k (some resumed) ∧
    (p.store.durable = true → ∃ cells, resumed.toCells = .ok cells) ∧
    ∃ perRow, s.lossPerRow = .ok perRow ∧
      q.log =
        p.log ++ [Step.entry k ⟨s, resumed, stepsize, change, perRow, p.passes - before⟩] := by
  unfold record at recorded
  obtain ⟨_, stored, put, recorded⟩ := Update.run_bind_eq_ok.mp recorded
  obtain ⟨found, _, changed, recorded⟩ := Update.run_bind_eq_ok.mp recorded
  obtain ⟨perRow, _, ratio, recorded⟩ := Update.run_bind_eq_ok.mp recorded
  rw [Update.run_ofExcept, Prod.mk.injEq] at changed ratio
  obtain ⟨changed, rfl⟩ := changed
  obtain ⟨ratio, rfl⟩ := ratio
  rw [Update.run_onPart] at put
  rcases done : (Store.put (.ofInt k) (some resumed)).run (p.store, p.directory) with ⟨result, kept⟩
  rw [done, Prod.mk.injEq] at put
  obtain ⟨rfl, rfl⟩ := put
  obtain ⟨store, laidOut⟩ := Store.put_ok done
  cases recorded
  exact ⟨changed, store, laidOut, perRow, ratio, rfl⟩

theorem record_of {k before : Nat} {s resumed : Snapshot α} {stepsize : Option α}
    {baseline : Option (Snapshot α)} {p : Progress α} {change : Option α} {perRow : α}
    (changed : relativeChange (some s) baseline = .ok change) (ratio : s.lossPerRow = .ok perRow)
    (stored : p.store.durable = true → ∃ cells, resumed.toCells = .ok cells) :
    ∃ q, (record k before s resumed stepsize baseline).run p = (.ok change, q) := by
  obtain ⟨kept, put⟩ := Store.put_of (k := k) p.directory stored
  unfold record
  rw [Update.run_bind, Update.run_onPart, put]
  dsimp only
  rw [changed, ratio, Update.run_bind_ok (Update.run_ofExcept _ _),
    Update.run_bind_ok (Update.run_ofExcept _ _), Update.run_bind_ok (Update.run_modify _ _)]
  exact ⟨_, rfl⟩

end Progress

end Passwise
