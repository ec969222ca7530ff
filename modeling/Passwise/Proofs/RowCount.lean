import Passwise.Proofs.Candidates
import Passwise.Proofs.Counting
import Passwise.Proofs.Restart
import Passwise.Proofs.Undefined

set_option autoImplicit false

namespace Passwise

namespace Machine

variable {α σ ρ : Type} {m : Machine α σ ρ}

def Tallies (m : Machine α σ ρ) (tally : Nat → σ → ρ → Prop) : Prop :=
  ∀ shape parts result, m.run shape parts = .ok result →
    (result = none ↔ ∀ part ∈ parts, part = []) ∧
    ∀ found ∈ result, ∃ state, m.gathered shape parts = .ok (some state) ∧
      tally (parts.map List.length).sum state found

theorem Tells.tallies {holds : List (Example α) → σ → Prop} (tells : m.Tells holds)
    {tally : Nat → σ → ρ → Prop}
    (finds : ∀ xs state result, xs ≠ [] → holds xs state → m.result state = .ok result →
      ∃ found, result = some found ∧ tally xs.length state found) : m.Tallies tally := by
  intro shape parts result done
  rw [run_eq_gathered] at done
  obtain ⟨last, ended, done⟩ := bind_eq_ok.mp done
  have stands := tells.stands_of_gathered ended
  rw [← List.flatten_eq_nil_iff, ← List.length_flatten]
  cases last with
  | none =>
    cases done
    exact ⟨iff_of_true rfl stands, by simp⟩
  | some state =>
    obtain ⟨taken, known⟩ := stands
    obtain ⟨found, rfl, tallied⟩ := finds _ state result taken known done
    refine ⟨iff_of_false (Option.some_ne_none found) taken, ?_⟩
    rintro _ ⟨⟩
    exact ⟨state, ended, tallied⟩

end Machine

variable {α : Type} [Scalar α]

def Snapshot.Tallied (rows : Nat) (state : PassState α) (found : Snapshot α) : Prop :=
  state.rows = (rows : Int) ∧ found.rows = Scalar.ofInt rows

theorem PassState.Counted.rows {origin : Origin α} {k : Nat} {state : PassState α}
    (counted : state.Counted origin k) : state.rows = (k : Int) := by
  rw [PassState.Counted, account, Prod.mk.injEq, Prod.mk.injEq] at counted
  exact counted.2.2

namespace Strategy.Counting

variable {s : Strategy α} {method : Method}

theorem tallied (counting : s.Counting method) {k : Nat} (positive : 0 < k) {state : PassState α}
    (counted : state.Counted s.origin k) {result : Option (Snapshot α)}
    (done : s.machine.result state = .ok result) :
    ∃ found, result = some found ∧ Snapshot.Tallied k state found := by
  obtain ⟨found, same, whole⟩ := counting.result positive counted done
  exact ⟨found, same, counted.rows, whole.rows⟩

theorem tallies (counting : s.Counting method) : s.machine.Tallies Snapshot.Tallied :=
  counting.counts.tells.tallies fun _ _ _ taken counted done =>
    counting.tallied (List.length_pos_iff.mpr taken) counted done

end Strategy.Counting

def Winner.Tallied (rows : Nat) (state : List (Candidate α)) (winner : Winner α) : Prop :=
  (∀ c ∈ state, c.rows = (rows : Int)) ∧ winner.rows = rows

namespace Search

variable {s : Search α}

theorem Carried.rows {P : Vec α → List (Example α) → α → Prop} {xs : List (Example α)}
    {state : List (Candidate α)} (carried : s.Carried P xs state) :
    ∀ c ∈ state, c.rows = (xs.length : Int) := by
  intro c member
  obtain ⟨model, -, -, rows, -⟩ := exists_of_forall₂ carried.each member
  exact rows

theorem result_rows {k : Int} (some : k ≠ 0) {state : List (Candidate α)}
    (rows : ∀ c ∈ state, c.rows = k) {found : Option (Winner α)}
    (done : s.result state = .ok found) : ∃ winner, found = .some winner ∧ winner.rows = k := by
  unfold result at done
  rcases state with _ | ⟨first, rest⟩
  · cases done
  · have taken : first.rows ≠ 0 := (rows first (by simp)).trans_ne some
    simp only [if_neg taken] at done
    obtain ⟨losses, -, done⟩ := bind_eq_ok.mp done
    split at done
    · cases done
    · split at done
      · cases done
      · next best here =>
        cases done
        exact ⟨_, rfl, rows best (List.mem_of_getElem? here)⟩

theorem tallies (s : Search α) : s.machine.Tallies Winner.Tallied := by
  refine (tells s.sums_trivial).tallies fun xs state result taken carried done => ?_
  have some : (xs.length : Int) ≠ 0 := by simpa using taken
  obtain ⟨winner, same, rows⟩ := result_rows some carried.rows done
  exact ⟨winner, same, carried.rows, rows⟩

end Search

namespace Trials

def Tallied (t : Trials α) (rows : Nat) (states : List (PassState α))
    (found : List (Snapshot α)) : Prop :=
  found.length = t.trials.length ∧ List.Forall₂ (Snapshot.Tallied rows) states found

theorem tallies (t : Trials α) : t.machine.Tallies t.Tallied := by
  refine t.counts.tells.tallies fun xs states result taken counted done => ?_
  have positive : 0 < xs.length := List.length_pos_iff.mpr taken
  have each (pair) (member : pair ∈ t.trials.zip states) (entry)
      (finished : pair.1.machine.result pair.2 = .ok entry) :
      ∃ s, entry = some s ∧ Snapshot.Tallied xs.length pair.2 s :=
    pair.1.counting.tallied positive ((List.forall₂_iff_zip.mp counted).2 member) finished
  obtain ⟨found, same, related⟩ := result_ok (fun pair member entry finished =>
    (each pair member entry finished).imp fun _ => And.left) done
  refine ⟨found, same, ?_, ?_⟩
  · rw [← related.length_eq, List.length_zip, ← counted.length_eq, Nat.min_self]
  · have own : List.Forall₂ (fun (pair : Incremental α × PassState α) s =>
        Snapshot.Tallied xs.length pair.2 s) (t.trials.zip states) found := by
      refine List.forall₂_iff_zip.mpr ⟨related.length_eq, fun {pair s} member => ?_⟩
      obtain ⟨_, ⟨⟩, tallied⟩ := each pair (List.of_mem_zip member).1 _
        ((List.forall₂_iff_zip.mp related).2 member)
      exact tallied
    have last : (t.trials.zip states).map Prod.snd = states :=
      List.map_snd_zip counted.length_eq.ge
    rw [← last, List.forall₂_map_left_iff]
    exact own

end Trials

theorem pass_counts_rows [DenseSolver α] :
    (∀ o : Optimizer α, o.machine.Tallies Snapshot.Tallied) ∧
    (∀ s : Search α, s.machine.Tallies Winner.Tallied) ∧
    ∀ t : Trials α, t.machine.Tallies t.Tallied := by
  refine ⟨fun o => ?_, Search.tallies, Trials.tallies⟩
  obtain ⟨s, counting, -, same⟩ := o.counting
  rw [same]
  exact counting.tallies

namespace Gaps

def parts : List (List (Example Float)) :=
  [[⟨[1], .plain 1⟩], [], [⟨[2], .plain 3⟩, ⟨[1], .plain 0⟩]]

def task : Task Float :=
  ⟨1, .ridge, 1, 0, Nat.one_pos, Overflow.isAdmissible_one, Overflow.isAdmissible_zero⟩

def origin : Origin Float := ⟨task, none⟩

local instance : DenseSolver Float := ⟨fun _ => 1, Elimination.solve, Elimination.inverse⟩

def optimizers : List (Optimizer Float) :=
  [.incremental ⟨origin, rfl⟩, .conjugate ⟨origin, .fletcherReeves, rfl⟩,
    .newton ⟨origin, 1000, rfl, rfl⟩]

def search : Search Float := ⟨task, [[1], [2]], none, Nat.two_pos, nofun, rfl, by simp [task]⟩

def trials : Trials Float := ⟨task, [1, 1], [⟨origin, rfl⟩, ⟨origin, rfl⟩]⟩

def found? {σ ρ : Type} (m : Machine Float σ ρ) : Option ρ := (m.run .tree parts).toOption.join

theorem exists_run {σ ρ : Type} {m : Machine Float σ ρ} (some : (found? m).isSome) :
    ∃ found, m.run .tree parts = .ok (.some found) := by
  obtain ⟨found, here⟩ := Option.isSome_iff_exists.mp some
  exact ⟨found, eq_ok_of_join here⟩

theorem pass_counts_rows_gaps :
    (∀ o ∈ optimizers, ∃ found, o.machine.run .tree parts = .ok (some found) ∧
      found.rows = Scalar.ofNat 3) ∧
    (∃ winner, search.machine.run .tree parts = .ok (some winner) ∧ winner.rows = 3) ∧
    ∃ found, trials.machine.run .tree parts = .ok (some found) ∧ found.length = 2 ∧
      ∀ s ∈ found, s.rows = Scalar.ofNat 3 := by
  obtain ⟨each, best, side⟩ := pass_counts_rows (α := Float)
  refine ⟨fun o member => ?_, ?_, ?_⟩
  · have all : ∀ o ∈ optimizers, (found? o.machine).isSome := by decide +kernel
    obtain ⟨found, ran⟩ := exists_run (all o member)
    obtain ⟨state, -, -, rows⟩ := (each o .tree parts _ ran).2 found rfl
    exact ⟨found, ran, rows⟩
  · have some : (found? search.machine).isSome := by decide +kernel
    obtain ⟨winner, ran⟩ := exists_run some
    obtain ⟨state, -, -, rows⟩ := (best search .tree parts _ ran).2 winner rfl
    exact ⟨winner, ran, rows⟩
  · have some : (found? trials.machine).isSome := by decide +kernel
    obtain ⟨found, ran⟩ := exists_run some
    obtain ⟨states, -, count, related⟩ := (side trials .tree parts _ ran).2 found rfl
    refine ⟨found, ran, count, fun s member => ?_⟩
    obtain ⟨state, -, -, rows⟩ := exists_of_forall₂ related member
    exact rows

end Gaps

end Passwise
