import Passwise.Proofs.Shares
import Passwise.Search

set_option autoImplicit false

namespace Passwise

variable {α : Type} [Exact α] {n : Nat} {survival : Bool}

theorem Totals.firstOrder_eq (d : Nat) : firstOrder d = (0 : Share α d).totals false := by
  rw [firstOrder, Vec.zeros_eq]
  rfl

theorem Totals.secondOrder_eq (d : Nat) : secondOrder d = (0 : Share α d).totals true := by
  rw [secondOrder, firstOrder, Vec.zeros_eq, Mat.zeros_eq]
  rfl

theorem Conjugate.additive (c : Conjugate α) : c.strategy.Additive c.objective false where
  separable := c.separable
  smooth := nofun
  step e state := by
    change (c.step e).exec state = _
    simp [step]
  totals := Totals.firstOrder_eq c.origin.task.dimension
  joined state a b := by
    change joined (a.state state false) (b.state state false) = _
    simp [joined, Share.state, Share.totals, sumParts, Totals.zero]

theorem Newton.additive [DenseSolver α] {m : Newton α}
    (separable : m.objective.usesRiskSet = false) :
    m.strategy.Additive m.objective true where
  separable := separable
  smooth _ := m.curved
  step e state := by
    change (m.step e).exec state = _
    simp [step]
  totals := Totals.secondOrder_eq m.origin.task.dimension
  joined state a b := by
    change joined (a.state state true) (b.state state true) = _
    simp [joined, Share.state, Share.totals, sumParts]

namespace Search

variable (s : Search α)

def share (e : Example α) : (Fin s.start.length → α) × Int :=
  (fun i => s.task.objective.lossAt (Vec.entries s.task.dimension s.start[i].model)
    (Vec.entries s.task.dimension e.features) e.label.number, 1)

def state (a : (Fin s.start.length → α) × Int) : List (Candidate α) :=
  List.ofFn fun i => { s.start[i] with loss := a.1 i, rows := a.2 }

theorem start_fresh :
    ∀ c ∈ s.start, c.loss = 0 ∧ c.rows = 0 ∧ c.model.length = s.task.dimension := by
  intro c member
  unfold start at member
  split at member
  · obtain ⟨model, inside, rfl⟩ := List.mem_map.mp member
    exact ⟨rfl, rfl, s.uniform model inside⟩
  · obtain ⟨⟨model, step⟩, inside, rfl⟩ := List.mem_map.mp member
    exact ⟨rfl, rfl, s.uniform model (List.of_mem_zip inside).1⟩

theorem start_ne_nil : s.start ≠ [] := by
  apply List.ne_nil_of_length_pos
  unfold start
  split
  · simpa using s.nonempty
  · next steps known =>
    simpa [s.paired steps known] using s.nonempty

theorem start_eq : s.start = s.state 0 := by
  apply List.ext_getElem
  · simp [state]
  · intro i hl hr
    obtain ⟨loss, rows, _⟩ := s.start_fresh _ (List.getElem_mem hl)
    simp [state, ← loss, ← rows]

theorem take_none (size : n = s.task.dimension) {e : Example α} (alike : e.Alike n survival) :
    (s.machine.take e).exec none =
      some <$> s.start.mapM (Candidate.absorb s.task.objective e).exec := by
  rw [Machine.take_none]
  change (s.accepts e >>= fun _ => Except.ok s.start >>= fun start =>
    some <$> (s.absorb e).exec start) = _
  rw [accepts, if_pos (alike.1.trans size), absorb, ok_bind, ok_bind, Update.exec_each]

theorem take_some (size : n = s.task.dimension) {e : Example α} (alike : e.Alike n survival)
    (candidates : List (Candidate α)) :
    (s.machine.take e).exec (some candidates) =
      some <$> candidates.mapM (Candidate.absorb s.task.objective e).exec := by
  rw [Machine.take_some]
  change (s.accepts e >>= fun _ => some <$> (s.absorb e).exec candidates) = _
  rw [accepts, if_pos (alike.1.trans size), absorb, ok_bind, Update.exec_each]

theorem absorb_state {e : Example α} (alike : e.Alike s.task.dimension false)
    (a : (Fin s.start.length → α) × Int) :
    (s.state a).mapM (Candidate.absorb s.task.objective e).exec =
      .ok (s.state (a + s.share e)) := by
  refine mapM_ofFn_ok fun i => ?_
  have fits : s.start[i].model.length = s.task.dimension :=
    (s.start_fresh _ (List.getElem_mem i.isLt)).2.2
  have loss := Objective.loss_of s.separable (Vec.entries s.task.dimension s.start[i].model)
    (Vec.entries s.task.dimension e.features) e.label.number
  rw [Vec.of_entries fits, Vec.of_entries alike.1, ← Label.eq_plain alike.2] at loss
  simp only [Candidate.absorb, Update.exec_get_bind, Update.exec_ofExcept_bind, loss, ok_bind,
    Update.exec_modify]
  rfl

theorem join_state (a b : (Fin s.start.length → α) × Int) :
    join (s.state a) (s.state b) = .ok (s.state (a + b)) := by
  rw [join, if_pos (by simp [state])]
  congr 1
  apply List.ext_getElem
  · simp [state]
  · intro i hl hr
    simp [state, Candidate.join]

theorem summing :
    s.machine.Summing (Example.Alike s.task.dimension false) s.share s.state where
  first e alike := by
    have absorbed := s.absorb_state alike 0
    rw [← s.start_eq, zero_add] at absorbed
    rw [s.take_none rfl alike, absorbed, map_ok]
  next a e alike := by
    rw [s.take_some rfl alike, s.absorb_state alike, map_ok]
  join := s.join_state

theorem refuses_of_dimension (survival : Bool) (other : n ≠ s.task.dimension) :
    ∃ cause, s.machine.Refusing (Example.Alike n survival) cause := by
  refine ⟨.dimensionMismatch s.task.dimension n, fun e alike => ?_⟩
  rw [Machine.take_none]
  change (s.accepts e >>= _) = _
  rw [accepts, if_neg (alike.1 ▸ other), alike.1]
  rfl

theorem refuses_times (size : n = s.task.dimension) :
    ∃ cause, s.machine.Refusing (Example.Alike n true) cause := by
  obtain ⟨c, rest, start⟩ := List.exists_cons_of_ne_nil s.start_ne_nil
  obtain ⟨cause, refuses⟩ :=
    Objective.refuses_misfits s.separable c.model (.inl rfl : true = true ∨ c.model.length ≠ n)
  refine ⟨cause, fun e alike => ?_⟩
  have refused : (Candidate.absorb s.task.objective e).exec c = .error cause := by
    simp [Candidate.absorb, (refuses e alike.1 alike.2).2]
  rw [s.take_none size alike, start, mapM_error rfl refused, map_error]

theorem uniform_machine : s.machine.Uniform (Example.Alike n survival) := by
  by_cases size : n = s.task.dimension
  · cases survival with
    | true =>
      obtain ⟨cause, refuses⟩ := s.refuses_times size
      exact .refuses refuses
    | false =>
      subst size
      exact .sums s.summing
  · obtain ⟨cause, refuses⟩ := s.refuses_of_dimension survival size
    exact .refuses refuses

end Search

end Passwise
