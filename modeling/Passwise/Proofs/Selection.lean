import Passwise.Proofs.Winning
import Passwise.Proofs.Layout

set_option autoImplicit false

namespace Passwise

theorem leastLoss?_eq {α : Type} [Scalar α] (entries : List (Option (Snapshot α))) :
    leastLoss? entries = lowest? Snapshot.loss entries := by
  rw [leastLoss?, lowest?]
  congr 1
  funext best entry
  obtain ⟨_ | snapshot, i⟩ := entry
  · rfl
  · cases best with
    | none => rfl
    | some least => exact (apply_ite some _ _ _).symm

variable {entries : List (Option (Snapshot Float))} {i : Nat} {first : Snapshot Float}

theorem lowest_of_number (leads : First entries i first)
    (number : Scalar.isNaN first.loss = false) :
    ∃ j best, leastLoss? entries = some (j, best) ∧
      Lowest Snapshot.loss (numbered Snapshot.loss entries) j best := by
  rcases lowest?_cases Snapshot.loss entries with ⟨k, x, other, undefined, -⟩ | ⟨-, same⟩
  · obtain ⟨-, rfl⟩ := leads.unique other
    cases number.symm.trans undefined
  · rcases found : lowest? Snapshot.loss (numbered Snapshot.loss entries) with _ | ⟨j, best⟩
    · have there := getElem?_numbered.mpr ⟨leads.here, number⟩
      cases lowest?_eq_none_iff.mp found _ (List.mem_of_getElem? there)
    · refine ⟨j, best, (leastLoss?_eq entries).trans (same.trans found), ?_⟩
      exact lowest_of_found (fun _ => isNaN_of_mem_numbered) found

theorem first_of_undefined (leads : First entries i first)
    (undefined : Scalar.isNaN first.loss = true) : leastLoss? entries = some (i, first) := by
  rcases lowest?_cases Snapshot.loss entries with ⟨k, x, other, -, found⟩ | ⟨firsts, -⟩
  · obtain ⟨rfl, rfl⟩ := leads.unique other
    exact (leastLoss?_eq entries).trans found
  · cases (firsts i first leads).symm.trans undefined

theorem place_among (number : Scalar.isNaN first.loss = false)
    (chosen : leastLoss? entries = some (i, first))
    (plain : ∀ s ∈ entries.reduceOption,
      Scalar.isFinite s.loss = true ∨ Scalar.isNaN s.loss = true) :
    ∃ k, entries.reduceOption[k]? = some first ∧
      lowest? id ((entries.reduceOption.map Snapshot.loss).map Scalar.finite?) =
        some (k, first.loss) := by
  have member := lowest?_reduceOption Snapshot.loss entries
  rw [← leastLoss?_eq, chosen] at member
  obtain ⟨⟨k, best⟩, found, rfl⟩ := Option.map_eq_some_iff.mp member.symm
  rcases lowest?_cases Snapshot.loss (entries.reduceOption.map some) with
    ⟨l, x, -, undefined, found'⟩ | ⟨-, same⟩
  · cases found.symm.trans found'
    cases number.symm.trans undefined
  · have known := same.symm.trans found
    have lowest := lowest_of_found (fun _ => isNaN_of_mem_numbered) known
    have place := (getElem?_numbered.mp lowest.here).1
    have finite : (entries.reduceOption.map Snapshot.loss).map Scalar.finite? =
        (numbered Snapshot.loss (entries.reduceOption.map some)).map
          (Option.map Snapshot.loss) := by
      simp only [numbered, List.map_map]
      refine List.map_congr_left fun s inside => ?_
      rcases plain s inside with finite | undefined
      · simp [Scalar.finite?, finite, Double.isNaN_of_isFinite finite]
      · have infinite : Scalar.isFinite s.loss = false := by
          by_contra finite
          rw [Bool.not_eq_false] at finite
          cases undefined.symm.trans (Double.isNaN_of_isFinite finite)
        simp [Scalar.finite?, infinite, undefined]
    refine ⟨k, by simpa using place, ?_⟩
    rw [finite, lowest?_map, known]
    rfl

theorem leastLoss?_lowest (entries : List (Option (Snapshot Float))) :
    (leastLoss? entries = none ↔ ∀ entry ∈ entries, entry = none) ∧
      ∀ i first, First entries i first →
        (Scalar.isNaN first.loss = true → leastLoss? entries = some (i, first)) ∧
        (Scalar.isNaN first.loss = false →
          ∃ j best, leastLoss? entries = some (j, best) ∧
            Lowest Snapshot.loss (numbered Snapshot.loss entries) j best ∧
            ∀ (s : Search Float) (c : Candidate Float) (rest : List (Candidate Float)),
              0 < c.rows →
              List.Forall₂ s.Penalized (c :: rest) (entries.reduceOption.map Snapshot.loss) →
              (∀ s ∈ entries.reduceOption,
                Scalar.isFinite s.loss = true ∨ Scalar.isNaN s.loss = true) →
              ∃ w, s.machine.conclude (some (c :: rest)) = .ok (some w) ∧
                entries.reduceOption[w.index]? = some best) := by
  refine ⟨by rw [leastLoss?_eq, lowest?_eq_none_iff], fun i first leads => ?_⟩
  refine ⟨first_of_undefined leads, fun number => ?_⟩
  obtain ⟨j, best, chosen, lowest⟩ := lowest_of_number leads number
  refine ⟨j, best, chosen, lowest, fun s c rest rows penalized plain => ?_⟩
  obtain ⟨k, place, found⟩ := place_among (getElem?_numbered.mp lowest.here).2 chosen plain
  obtain ⟨winner, -, ended⟩ := Search.conclude_of_found rows.ne' penalized found
  exact ⟨_, ended, place⟩

def Snapshot.valued (loss : Float) : Snapshot Float := { mixed with loss := loss }

def unpenalized (loss : Float) : Candidate Float := ⟨[0], none, loss, 4⟩

theorem leastLoss?_lowest_gaps :
    let entries : List (Option (Snapshot Float)) :=
      [none, some (.valued 2), some (.valued (0 / 0)), none, some (.valued 1), some (.valued 1)]
    First entries 1 (.valued 2) ∧ Scalar.isNaN (Snapshot.valued 2).loss = false ∧
      ∃ best, leastLoss? entries = some (4, best) ∧
        Lowest Snapshot.loss (numbered Snapshot.loss entries) 4 best ∧
        ∃ s w, Search.make Search.weighed [[2]] none = .ok s ∧
          s.machine.conclude (some ([2, 0 / 0, 1, 1].map unpenalized)) = .ok (some w) ∧
          entries.reduceOption[w.index]? = some best := by
  intro entries
  have leads : First entries 1 (.valued 2) := by
    refine ⟨rfl, fun j below => ?_⟩
    obtain rfl : j = 0 := by omega
    rfl
  have number : Scalar.isNaN (Snapshot.valued 2).loss = false := by decide +kernel
  obtain ⟨j, best, chosen, lowest, searched⟩ :=
    ((leastLoss?_lowest entries).2 1 _ leads).2 number
  have place : (leastLoss? entries).map Prod.fst = some 4 := by decide +kernel
  rw [chosen] at place
  obtain rfl : j = 4 := Option.some.inj place
  have same : ∀ x ∈ [(2 : Float), 0 / 0, 1, 1], x = x + 0 := by decide +kernel
  have plain : ∀ x ∈ [(2 : Float), 0 / 0, 1, 1],
      Scalar.isFinite x = true ∨ Scalar.isNaN x = true := by
    decide +kernel
  have free : (Search.weighed.penalty.loss Search.weighed.regularization [0]).toOption =
      some 0 := by
    decide +kernel
  have accepted : (Search.make Search.weighed [[2]] none).toOption.isSome = true := by
    decide +kernel
  obtain ⟨s, made⟩ := Option.isSome_iff_exists.mp accepted
  have made := eq_ok_of_toOption made
  have penalized : ∀ x ∈ [(2 : Float), 0 / 0, 1, 1], s.Penalized (unpenalized x) x := by
    intro x member
    rw [Search.Penalized, (Search.make_ok made).1]
    exact ⟨0, eq_ok_of_toOption free, same x member⟩
  have losses : entries.reduceOption.map Snapshot.loss = [2, 0 / 0, 1, 1] := rfl
  obtain ⟨w, ended, found⟩ := searched s (unpenalized 2) ([0 / 0, 1, 1].map unpenalized) (by decide)
    (by rw [losses]; exact List.forall₂_map_left_iff.mpr (List.forall₂_same.mpr penalized))
    (List.forall_mem_map.mp (losses ▸ plain))
  exact ⟨leads, number, best, chosen, lowest, s, w, made, ended, found⟩

theorem undefined_loss_kept :
    let entries : List (Option (Snapshot Float)) := [some (.valued (0 / 0)), some (.valued 1)]
    (∃ s, some s ∈ entries ∧ Scalar.isNaN s.loss = false) ∧
      ∃ best, leastLoss? entries = some (0, best) ∧ Scalar.isNaN best.loss = true := by
  intro entries
  have undefined : Scalar.isNaN (Snapshot.valued (0 / 0)).loss = true := by decide +kernel
  have number : Scalar.isNaN (Snapshot.valued 1).loss = false := by decide +kernel
  have leads : First entries 0 (.valued (0 / 0)) := ⟨rfl, by simp⟩
  exact ⟨⟨_, by simp [entries], number⟩, _, first_of_undefined leads undefined, undefined⟩

end Passwise
