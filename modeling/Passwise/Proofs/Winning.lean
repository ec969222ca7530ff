import Passwise.Proofs.Lowest
import Passwise.Proofs.Undefined

set_option autoImplicit false

namespace Passwise

def Scalar.finite? {α : Type} [Scalar α] (x : α) : Option α := if isFinite x then some x else none

section

variable {α : Type} [Scalar α] {x y : α} {values : List α}

theorem Scalar.finite?_eq_some_iff : finite? x = some y ↔ isFinite x = true ∧ x = y := by
  simp [finite?]

theorem Scalar.finite?_eq_none_iff : finite? x = none ↔ isFinite x = false := by
  simp [finite?]

theorem Search.leastFinite?_eq (values : List α) :
    leastFinite? values = lowest? id (values.map Scalar.finite?) := by
  induction values using List.reverseRecOn with
  | nil => rfl
  | append_singleton values x ih =>
    rw [leastFinite?_snoc, List.map_append, List.map_singleton, ih]
    by_cases finite : Scalar.isFinite x = true
    · have there : Scalar.finite? x = some x := if_pos finite
      rw [if_pos finite, there]
      rcases found : lowest? id (values.map Scalar.finite?) with _ | least
      · rw [lowest?_snoc_of_none found, List.length_map]
      · by_cases below : x < least.2
        · rw [lowest?_snoc_of_lt found below, List.length_map]
          exact if_pos below
        · rw [lowest?_snoc_of_not found below]
          exact if_neg below
    · have missing : Scalar.finite? x = none := if_neg finite
      rw [if_neg finite, missing, lowest?_snoc_none]

end

namespace Search

section

variable {α : Type} [Scalar α] {s : Search α} {state rest : List (Candidate α)}
  {first : Candidate α} {losses : List α}

def Penalized (s : Search α) (c : Candidate α) (loss : α) : Prop :=
  ∃ penalty, s.task.penalty.loss s.task.regularization c.model = .ok penalty ∧
    loss = c.loss + penalty

theorem penalizedLosses_of (penalized : List.Forall₂ s.Penalized state losses) :
    s.penalizedLosses state = .ok losses := by
  induction penalized with
  | nil => rfl
  | cons here _ ih =>
    obtain ⟨penalty, known, rfl⟩ := here
    rw [penalizedLosses] at ih ⊢
    rw [List.mapM_cons, known, ih]
    rfl

theorem exists_penalized [Scalar.Plain α] (s : Search α) (state : List (Candidate α)) :
    ∃ losses, List.Forall₂ s.Penalized state losses := by
  induction state with
  | nil => exact ⟨[], .nil⟩
  | cons c state ih =>
    obtain ⟨losses, penalized⟩ := ih
    obtain ⟨penalty, known⟩ := s.task.penalty.loss_ok s.task.regularization c.model
    exact ⟨_, .cons ⟨penalty, known, rfl⟩ penalized⟩

theorem conclude_of_none (rows : first.rows ≠ 0)
    (penalized : List.Forall₂ s.Penalized (first :: rest) losses)
    (none : lowest? id (losses.map Scalar.finite?) = none) :
    s.machine.conclude (some (first :: rest)) = .error .noFiniteLoss := by
  change s.result (first :: rest) = _
  simp only [result, if_neg rows, penalizedLosses_of penalized, ok_bind, leastFinite?_eq, none]

theorem conclude_of_found (rows : first.rows ≠ 0)
    (penalized : List.Forall₂ s.Penalized (first :: rest) losses) {i : Nat} {loss : α}
    (found : lowest? id (losses.map Scalar.finite?) = some (i, loss)) :
    ∃ best, (first :: rest)[i]? = some best ∧ s.machine.conclude (some (first :: rest)) =
      .ok (some ⟨i, best.model, best.stepsize, losses, best.rows, loss⟩) := by
  have least : leastFinite? losses = some (i, loss) := (leastFinite?_eq losses).trans found
  rcases leastFinite?_cases losses with ⟨none, -⟩ | ⟨j, x, some, here, -⟩
  · cases least.symm.trans none
  · cases least.symm.trans some
    obtain ⟨best, place, -⟩ := getElem?_forall₂ penalized.flip here
    exact ⟨best, place, result_of rfl rows (penalizedLosses_of penalized) least place⟩

theorem index_of_conclude (rows : first.rows ≠ 0)
    (penalized : List.Forall₂ s.Penalized (first :: rest) losses) :
    (s.machine.conclude (some (first :: rest))).map (Option.map Winner.index) =
      (lowest? id (losses.map Scalar.finite?)).elim (.error .noFiniteLoss)
        fun least => .ok (some least.1) := by
  rcases found : lowest? id (losses.map Scalar.finite?) with _ | ⟨i, loss⟩
  · rw [conclude_of_none rows penalized found]
    rfl
  · obtain ⟨best, -, done⟩ := conclude_of_found rows penalized found
    rw [done]
    rfl

end

theorem lowest_finite {losses : List Float} {i : Nat} {loss : Float}
    (found : lowest? id (losses.map Scalar.finite?) = some (i, loss)) :
    Lowest id (losses.map Scalar.finite?) i loss := by
  refine lowest_of_found (fun x member => ?_) found
  obtain ⟨y, -, here⟩ := List.mem_map.mp member
  obtain ⟨finite, rfl⟩ := Scalar.finite?_eq_some_iff.mp here
  exact Double.isNaN_of_isFinite finite

theorem lowest?_finite_eq_none_iff {losses : List Float} :
    lowest? id (losses.map Scalar.finite?) = none ↔ ∀ x ∈ losses, Scalar.isFinite x = false := by
  simp [lowest?_eq_none_iff, Scalar.finite?_eq_none_iff]

theorem concludes_with_lowest (s : Search Float) {first : Candidate Float}
    (rest : List (Candidate Float)) (rows : 0 < first.rows) :
    ∃ losses, List.Forall₂ s.Penalized (first :: rest) losses ∧
      (∀ cause, s.machine.conclude (some (first :: rest)) = .error cause ↔
        cause = .noFiniteLoss ∧ ∀ x ∈ losses, Scalar.isFinite x = false) ∧
      ((∃ x ∈ losses, Scalar.isFinite x = true) →
        ∃ w best, s.machine.conclude (some (first :: rest)) = .ok (some w) ∧
          Lowest id (losses.map Scalar.finite?) w.index w.loss ∧ w.losses = losses ∧
          (first :: rest)[w.index]? = some best ∧ w.model = best.model ∧
          w.stepsize = best.stepsize ∧ w.rows = best.rows) ∧
      ∀ (t : Search Float) (first' : Candidate Float) (rest' : List (Candidate Float))
        (losses' : List Float), 0 < first'.rows →
        List.Forall₂ t.Penalized (first' :: rest') losses' →
        losses'.map Scalar.finite? = losses.map Scalar.finite? →
        (t.machine.conclude (some (first' :: rest'))).map (Option.map Winner.index) =
          (s.machine.conclude (some (first :: rest))).map (Option.map Winner.index) := by
  obtain ⟨losses, penalized⟩ := s.exists_penalized (first :: rest)
  have nonzero : first.rows ≠ 0 := rows.ne'
  refine ⟨losses, penalized, ?_, ?_, ?_⟩
  · intro cause
    rw [← lowest?_finite_eq_none_iff]
    rcases found : lowest? id (losses.map Scalar.finite?) with _ | ⟨i, loss⟩
    · rw [conclude_of_none nonzero penalized found]
      simp [eq_comm]
    · obtain ⟨best, -, done⟩ := conclude_of_found nonzero penalized found
      rw [done]
      simp
  · rintro ⟨x, member, finite⟩
    rcases found : lowest? id (losses.map Scalar.finite?) with _ | ⟨i, loss⟩
    · rw [lowest?_finite_eq_none_iff.mp found x member] at finite
      cases finite
    · obtain ⟨best, place, done⟩ := conclude_of_found nonzero penalized found
      exact ⟨_, best, done, lowest_finite found, rfl, place, rfl, rfl, rfl⟩
  · intro t first' rest' losses' rows' penalized' same
    rw [index_of_conclude nonzero penalized, index_of_conclude rows'.ne' penalized', same]

def weighed : Task Float :=
  ⟨1, .ridge, 1, 1, Nat.one_pos, Overflow.isAdmissible_one, Overflow.isAdmissible_one⟩

def lost : Candidate Float := ⟨[0], none, 0 / 0, 4⟩

def others : List (Candidate Float) :=
  [⟨[1], some 0.5, 3, 4⟩, ⟨[0], none, -1 / 0, 4⟩, ⟨[2], some 0.25, 1, 4⟩, ⟨[0], none, 3, 4⟩,
    ⟨[0], none, 1 / 0, 4⟩]

theorem concludes_with_lowest_tied :
    ∃ s, make weighed [[2]] none = .ok s ∧ 0 < lost.rows ∧
      ∃ w, s.machine.conclude (some (lost :: others)) = .ok (some w) ∧ w.index = 3 ∧
        Lowest id (w.losses.map Scalar.finite?) 3 w.loss := by
  have index : ((make weighed [[2]] none).toOption.bind fun s =>
      (s.machine.conclude (some (lost :: others))).toOption.join.map (·.index)) = some 3 := by
    decide +kernel
  obtain ⟨s, made, index⟩ := Option.bind_eq_some_iff.mp index
  obtain ⟨w, found, index⟩ := Option.map_eq_some_iff.mp index
  have done := eq_ok_of_join found
  have rows : 0 < lost.rows := by decide
  obtain ⟨losses, -, fails, wins, -⟩ := concludes_with_lowest s others rows
  have some : ∃ x ∈ losses, Scalar.isFinite x = true := by
    by_contra none
    have failed := (fails .noFiniteLoss).mpr ⟨rfl, by simpa using none⟩
    cases done.symm.trans failed
  obtain ⟨w', best, done', lowest, rfl, -⟩ := wins some
  obtain rfl : w = w' := by simpa using done.symm.trans done'
  rw [index] at lowest
  exact ⟨s, eq_ok_of_toOption made, rows, w, done, index, lowest⟩

end Search

end Passwise
