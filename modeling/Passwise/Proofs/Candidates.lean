import Passwise.Proofs.Scoring
import Passwise.Proofs.Following
import Passwise.Proofs.Sizes
import Passwise.Scalar.Double

set_option autoImplicit false

namespace Passwise

class Scalar.Plain (α : Type) [Scalar α] : Prop where
  measure_ok : ∀ x : α, measure x = .ok x
  operand_ok : ∀ x : α, operand x = .ok x
  factor_ok : ∀ x : α, factor x = .ok x

instance : Scalar.Plain Float := ⟨fun _ => rfl, fun _ => rfl, fun _ => rfl⟩

variable {α : Type} [Scalar α]

namespace Objective

theorem alike_of_loss {o : Objective} {model : Vec α} {e : Example α} {x : α}
    (made : o.loss model e = .ok x) :
    model.length = e.dimension ∧ e.label.isSurvival = false := by
  refine ⟨length_of_loss made, ?_⟩
  rcases known : e.label with value | ⟨time, event⟩
  · rfl
  · cases o with
    | cox => cases made
    | svm | logistic =>
      rw [loss, known] at made
      cases made
    | ridge | lasso =>
      obtain ⟨score, -, made⟩ := bind_eq_ok.mp made
      rw [known] at made
      cases made

theorem loss_ok {o : Objective} (separable : o.usesRiskSet = false) {model : Vec α}
    {e : Example α} (size : model.length = e.dimension) (plain : e.label.isSurvival = false) :
    ∃ x, o.loss model e = .ok x := by
  have scored : Vec.dot? model e.features = .ok (Vec.dot model e.features) :=
    Vec.dot?_of_length_eq size
  rcases known : e.label with value | ⟨time, event⟩
  · cases o with
    | cox => cases separable
    | svm | logistic | ridge | lasso =>
      simp only [loss, known, Label.sign, Label.value, scored, ok_bind, pure_ok]
      exact ⟨_, rfl⟩
  · rw [known] at plain
    cases plain

end Objective

theorem Penalty.loss_ok [Scalar.Plain α] (p : Penalty) (weight : α) (model : Vec α) :
    ∃ x, p.loss weight model = .ok x := by
  cases p with
  | l1 | l2 =>
    simp only [loss, Scalar.Plain.operand_ok, ok_bind, pure_ok]
    exact ⟨_, rfl⟩

theorem Candidate.exec_absorb (o : Objective) (e : Example α) (c : Candidate α) :
    (absorb o e).exec c = (o.loss c.model e).map fun loss =>
      { c with loss := c.loss + loss, rows := c.rows + 1 } := by
  simp only [absorb, Update.exec_get_bind, Update.exec_ofExcept_bind, Update.exec_modify]
  cases o.loss c.model e <;> rfl

theorem forall₂_zipWith {β γ : Type} {R S T : β → γ → Prop} {f : γ → γ → γ} {ms : List β}
    {xs ys : List γ} (left : List.Forall₂ R ms xs) (right : List.Forall₂ S ms ys)
    (each : ∀ m x y, R m x → S m y → T m (f x y)) :
    List.Forall₂ T ms (List.zipWith f xs ys) := by
  induction left generalizing ys with
  | nil =>
    cases right
    exact .nil
  | cons first _ ih =>
    obtain _ | ⟨second, others⟩ := right
    exact .cons (each _ _ _ first second) (ih others)

namespace Search

theorem leastFinite?_cases (values : List α) :
    (leastFinite? values = none ∧ ∀ x ∈ values, Scalar.isFinite x = false) ∨
      ∃ i x, leastFinite? values = some (i, x) ∧ values[i]? = some x ∧
        Scalar.isFinite x = true := by
  induction values using List.reverseRecOn with
  | nil => exact .inl ⟨rfl, by simp⟩
  | append_singleton values x ih =>
    have inside {i : Nat} {y : α} (here : values[i]? = some y) :
        (values ++ [x])[i]? = some y := by
      rw [List.getElem?_append_left (List.getElem?_eq_some_iff.mp here).1, here]
    have last : (values ++ [x])[values.length]? = some x := by simp
    rw [leastFinite?_snoc]
    by_cases finite : Scalar.isFinite x = true
    · rw [if_pos finite]
      rcases ih with ⟨none, -⟩ | ⟨i, least, found, here, lower⟩
      · rw [none]
        exact .inr ⟨_, x, rfl, last, finite⟩
      · rw [found]
        by_cases below : x < least
        · exact .inr ⟨_, x, if_pos below, last, finite⟩
        · exact .inr ⟨i, least, if_neg below, inside here, lower⟩
    · rw [if_neg finite]
      rcases ih with ⟨none, others⟩ | ⟨i, least, found, here, lower⟩
      · refine .inl ⟨none, List.forall_mem_append.mpr ⟨others, ?_⟩⟩
        simpa using finite
      · exact .inr ⟨i, least, found, inside here, lower⟩

structure Sums (s : Search α) (P : Vec α → List (Example α) → α → Prop) : Prop where
  none : ∀ model, P model [] 0
  snoc : ∀ model xs e total loss, P model xs total → s.task.objective.loss model e = .ok loss →
    P model (xs ++ [e]) (total + loss)
  append : ∀ model xs ys total total', P model xs total → P model ys total' →
    P model (xs ++ ys) (total + total')

theorem sums_trivial (s : Search α) : s.Sums fun _ _ _ => True :=
  ⟨fun _ => trivial, fun _ _ _ _ _ _ _ => trivial, fun _ _ _ _ _ _ _ => trivial⟩

structure Carried (s : Search α) (P : Vec α → List (Example α) → α → Prop)
    (xs : List (Example α)) (state : List (Candidate α)) : Prop where
  alike : ∀ e ∈ xs, e.Alike s.task.dimension false
  each : List.Forall₂ (fun model c => c.model = model ∧ c.rows = (xs.length : Int) ∧
    P model xs c.loss)
    s.models state

variable {s : Search α} {P : Vec α → List (Example α) → α → Prop} {xs ys : List (Example α)}
  {state left right : List (Candidate α)}

theorem Carried.start (sums : s.Sums P) : s.Carried P [] s.start := by
  refine ⟨by simp, forall₂_of_getElem? ?_ ?_⟩
  · unfold Search.start
    rcases known : s.stepsizes with _ | steps
    · simp
    · simp [s.paired steps known]
  · intro k model here
    have inside := (List.getElem?_eq_some_iff.mp here).1
    unfold Search.start
    rcases known : s.stepsizes with _ | steps
    · exact ⟨⟨model, none, 0, 0⟩, by simp [here], rfl, rfl, sums.none model⟩
    · have given : k < steps.length := (s.paired steps known).symm ▸ inside
      have pair : (s.models.zip steps)[k]? = some (model, steps.get ⟨k, given⟩) :=
        List.getElem?_zip_eq_some.mpr ⟨here, List.getElem?_eq_getElem given⟩
      exact ⟨⟨model, some (steps.get ⟨k, given⟩), 0, 0⟩, by simp [pair], rfl, rfl, sums.none model⟩

theorem Carried.ne_nil (carried : s.Carried P xs state) : state ≠ [] := by
  rintro rfl
  have length := carried.each.length_eq
  have nonempty := s.nonempty
  rw [length] at nonempty
  cases nonempty

theorem Carried.absorb (sums : s.Sums P) (carried : s.Carried P xs state) {e : Example α}
    (accepted : s.accepts e = .ok ()) {next : List (Candidate α)}
    (absorbed : (s.absorb e).exec state = .ok next) : s.Carried P (xs ++ [e]) next := by
  have size : e.dimension = s.task.dimension := by
    unfold accepts at accepted
    split_ifs at accepted with size
    exact size
  have each : List.Forall₂ (fun model c => e.label.isSurvival = false ∧ c.model = model ∧
      c.rows = ((xs ++ [e]).length : Int) ∧ P model (xs ++ [e]) c.loss) s.models next := by
    refine Update.forall₂_of_exec_each carried.each ?_ absorbed
    rintro - model c moved - ⟨same, rows, known⟩ taken
    rw [Candidate.exec_absorb] at taken
    rcases made : s.task.objective.loss c.model e with _ | loss
    · rw [made] at taken
      cases taken
    · rw [made] at taken
      cases taken
      refine ⟨(Objective.alike_of_loss made).2, same, ?_, ?_⟩
      · simp [rows]
      · exact sums.snoc model xs e c.loss loss known (same ▸ made)
  refine ⟨List.forall_mem_append.mpr ⟨carried.alike, ?_⟩, each.imp fun _ _ => And.right⟩
  obtain ⟨model, others, whole⟩ := List.exists_cons_of_length_pos s.nonempty
  rw [whole] at each
  obtain _ | ⟨first, _⟩ := each
  rintro _ (_ | ⟨_, ⟨⟩⟩)
  exact ⟨size, first.1⟩

theorem Carried.join (sums : s.Sums P) (before : s.Carried P xs left)
    (after : s.Carried P ys right) :
    ∃ whole, join left right = .ok whole ∧ s.Carried P (xs ++ ys) whole := by
  have same : left.length = right.length := by
    rw [← before.each.length_eq, ← after.each.length_eq]
  refine ⟨_, if_pos same, List.forall_mem_append.mpr ⟨before.alike, after.alike⟩, ?_⟩
  refine forall₂_zipWith before.each after.each ?_
  rintro model a b ⟨own, rows, known⟩ ⟨-, rows', known'⟩
  exact ⟨own, by simp [Candidate.join, rows, rows'],
    sums.append model xs ys a.loss b.loss known known'⟩

theorem tells (sums : s.Sums P) : s.machine.Tells (s.Carried P) where
  start := by
    rintro _ ⟨⟩
    exact .start sums
  absorb _ _ _ _ carried accepted absorbed := carried.absorb sums accepted absorbed
  join _ _ left right whole _ _ before after joined := by
    obtain ⟨state, same, carried⟩ := before.join sums after
    obtain rfl : whole = state := by simpa using joined.symm.trans same
    exact carried

theorem follows (sums : s.Sums P) :
    s.machine.Follows (Example.Alike s.task.dimension false) (s.Carried P) where
  toTells := tells sums
  starts := ⟨s.start, rfl⟩
  absorbs xs e state alike carried := by
    refine ⟨if_pos alike.1, ?_⟩
    change ∃ next, (s.absorb e).exec state = .ok next
    have goes : List.Forall₂ (fun _ c => ∃ next,
        (Candidate.absorb s.task.objective e).exec c = .ok next ∧ True) s.models state := by
      refine (List.forall₂_iff_zip.mpr ⟨carried.each.length_eq, fun {model c} member => ?_⟩)
      have own := (List.forall₂_iff_zip.mp carried.each).2 member
      have size : c.model.length = e.dimension := by
        rw [own.1, alike.1]
        exact s.uniform model (List.of_mem_zip member).1
      obtain ⟨loss, made⟩ := Objective.loss_ok s.separable size alike.2
      exact ⟨_, by rw [Candidate.exec_absorb, made]; rfl, trivial⟩
    obtain ⟨next, absorbed, -⟩ := mapM_of_forall₂ goes
    exact ⟨next, by rw [Search.absorb, Update.exec_each, absorbed]⟩
  joins _ _ _ _ _ _ before after := by
    obtain ⟨whole, joined, -⟩ := before.join sums after
    exact ⟨whole, joined⟩

inductive Verdict (s : Search α) (losses : List α) : Except Error (Option (Winner α)) → Prop
  | unscored (none : ∀ x ∈ losses, Scalar.isFinite x = false) :
      s.Verdict losses (.error .noFiniteLoss)
  | won {w : Winner α} (model : s.models[w.index]? = some w.model) (all : w.losses = losses)
      (loss : losses[w.index]? = some w.loss) (finite : Scalar.isFinite w.loss = true) :
      s.Verdict losses (.ok (some w))

theorem Carried.result [Scalar.Plain α] (carried : s.Carried P xs state) (taken : xs ≠ []) :
    ∃ losses, s.penalizedLosses state = .ok losses ∧
      List.Forall₂ (fun c loss => ∃ penalty, loss = c.loss + penalty) state losses ∧
      s.Verdict losses (s.result state) := by
  have goes : List.Forall₂ (fun c c' => ∃ loss,
      (do return c'.loss + (← s.task.penalty.loss s.task.regularization c'.model)) = .ok loss ∧
        ∃ penalty, loss = c.loss + penalty) state state := by
    refine List.forall₂_same.mpr fun c _ => ?_
    obtain ⟨penalty, known⟩ := s.task.penalty.loss_ok s.task.regularization c.model
    exact ⟨c.loss + penalty, by rw [known]; rfl, penalty, rfl⟩
  obtain ⟨losses, scored, each⟩ := mapM_of_forall₂ goes
  refine ⟨losses, scored, each, ?_⟩
  obtain ⟨first, rest, whole⟩ := List.exists_cons_of_ne_nil carried.ne_nil
  have rows : first.rows ≠ 0 := by
    obtain ⟨_, -, -, count, -⟩ := exists_of_forall₂ carried.each (y := first) (by simp [whole])
    have some := List.length_pos_iff.mpr taken
    omega
  rcases leastFinite?_cases losses with ⟨none, others⟩ | ⟨i, least, found, here, finite⟩
  · have unscored : s.result state = .error .noFiniteLoss := by
      have scored : s.penalizedLosses state = .ok losses := scored
      rw [whole] at scored ⊢
      simp only [Search.result, if_neg rows, scored, ok_bind, none]
    rw [unscored]
    exact .unscored others
  · obtain ⟨best, place, -⟩ := getElem?_forall₂ each.flip here
    obtain ⟨model, candidate, own, -, -⟩ := getElem?_forall₂ carried.each.flip place
    rw [result_of whole rows scored found place]
    exact .won (own ▸ candidate) rfl here finite

end Search

end Passwise
