import Passwise.Proofs.Diverging
import Passwise.Proofs.RowCount
import Passwise.Proofs.Skipping

set_option autoImplicit false

namespace Passwise

namespace Update

variable {σ τ β γ : Type}

theorem exists_exec_each {R : β → τ → Prop} {update : Nat → Update τ Unit} {xs : List β}
    {parts : List τ} (related : List.Forall₂ R xs parts)
    (goes : ∀ k x part, xs[k]? = some x → R x part → ∃ next, (update k).exec part = .ok next) :
    ∃ next, (each update).exec parts = .ok next := by
  have each : List.Forall₂ (fun (_ : β) pair => ∃ next,
      (update pair.2).exec pair.1 = .ok next ∧ True) xs parts.zipIdx :=
    (forall₂_zipIdx related).imp fun x pair ⟨here, place⟩ =>
      (goes pair.2 x pair.1 place here).imp fun _ done => ⟨done, trivial⟩
  obtain ⟨next, done, -⟩ := mapM_of_forall₂ each
  exact ⟨next, (exec_each_zipIdx update parts).trans done⟩

def Clean (x : Update σ β) (s : σ) : Prop := ∀ cause t, x.run s = (.error cause, t) → t = s

namespace Clean

variable {s t : σ}

theorem of_exec {x : Update σ β} (done : x.exec s = .ok t) : Clean x s := by
  intro cause left failed
  rw [exec, failed] at done
  cases done

theorem get_bind {f : σ → Update σ β} (clean : Clean (f s) s) : Clean (get >>= f) s := clean

theorem ofExcept_bind {result : Except Error β} {f : β → Update σ γ}
    (clean : ∀ b, result = .ok b → Clean (f b) s) : Clean (ofExcept result >>= f) s := by
  intro cause t failed
  cases result with
  | error _ => exact (congrArg Prod.snd failed).symm
  | ok b => exact clean b rfl cause t failed

theorem bind_modify {x : Update σ Unit} (clean : Clean x s) (f : σ → σ) :
    Clean (x >>= fun _ => modify f) s := by
  intro cause t failed
  rw [run_bind] at failed
  rcases done : x.run s with ⟨_ | _, left⟩
  · rw [done] at failed
    cases failed
    exact clean _ _ done
  · rw [done] at failed
    cases failed

theorem onPart {get : σ → τ} {put : τ → σ → σ} {part : Update τ β}
    (clean : Clean part (get s)) (same : put (get s) s = s) : Clean (onPart get put part) s := by
  intro cause t failed
  rcases ran : part.run (get s) with ⟨result, left⟩
  rw [run_onPart, ran, Prod.mk.injEq] at failed
  obtain ⟨rfl, rfl⟩ := failed
  exact (congrArg (put · s) (clean cause left ran)).trans same

-- Where some parts would go through and others fail, those before the first that fails change.
theorem each {update : Nat → Update τ Unit} {parts : List τ}
    (alike : (∃ next, (each update).exec parts = .ok next) ∨
      ∀ k part, parts[k]? = some part →
        Clean (update k) part ∧ ∃ cause, (update k).exec part = .error cause) :
    Clean (each update) parts := by
  rcases alike with ⟨next, done⟩ | all
  · exact of_exec done
  · intro cause t failed
    cases parts with
    | nil => cases failed
    | cons part rest =>
      obtain ⟨clean, own, fails⟩ := all 0 part rfl
      rcases ran : (update 0).run part with ⟨own' | _, left⟩
      · have head : (Update.each update).run (part :: rest) = (.error own', left :: rest) := by
          simp only [Update.each, each.go, ExceptT.run, ExceptT.mk] at ran ⊢
          rw [ran]
        rw [head] at failed
        cases failed
        rw [clean _ _ ran]
      · rw [exec, ran] at fails
        cases fails

end Clean

end Update

namespace Machine

variable {α σ ρ : Type} {m : Machine α σ ρ}

-- Examples that fail are passed over; the list holds those that went through.
inductive Took (m : Machine α σ ρ) : List (Example α) → Option σ → Prop
  | empty : m.Took [] none
  | start {state : σ} (started : m.start = .ok state) : m.Took [] (some state)
  | take {xs : List (Example α)} {e : Example α} {state next : Option σ}
      (before : m.Took xs state) (taken : (m.take e).exec state = .ok next) :
      m.Took (xs ++ [e]) next
  | fail {xs : List (Example α)} {e : Example α} {state : Option σ} {cause : Error}
      (before : m.Took xs state) (failed : (m.take e).exec state = .error cause) :
      m.Took xs ((m.take e).left state)
  | merge {xs ys : List (Example α)} {left right whole : Option σ}
      (before : m.Took xs left) (before' : m.Took ys right)
      (merged : m.merge left right = .ok whole) : m.Took (xs ++ ys) whole

def PassesOver (m : Machine α σ ρ) : Prop :=
  ∀ xs state, m.Took xs state →
    (∀ e cause, (m.take e).exec state = .error cause → (m.take e).left state = state) ∧
    ∀ examples, m.fold (m.taken examples state) state = .ok (m.leaves examples state)

structure Atomic (m : Machine α σ ρ) (holds : List (Example α) → σ → Prop) : Prop where
  start : ∀ state, m.start = .ok state → holds [] state
  absorb : ∀ xs e state next, holds xs state → m.accepts e = .ok () →
    (m.absorb e).exec state = .ok next → holds (xs ++ [e]) next
  join : ∀ xs ys left right whole, holds xs left → holds ys right →
    m.join left right = .ok whole → holds (xs ++ ys) whole
  clean : ∀ xs e state, holds xs state → m.accepts e = .ok () → (m.absorb e).Clean state

namespace Atomic

variable {holds : List (Example α) → σ → Prop}

theorem left_of_error (atomic : m.Atomic holds) {xs : List (Example α)} {e : Example α}
    {state : Option σ} {cause : Error} (known : ∀ s ∈ state, holds xs s)
    (failed : (m.take e).exec state = .error cause) : (m.take e).left state = state := by
  rcases ran : (m.take e).run state with ⟨_ | _, left⟩
  · rw [Update.left, ran]
    cases state with
    | none => exact eq_none_of_run ran
    | some s =>
      rcases accepted : m.accepts e with _ | _
      · rw [run_take_refused accepted, Prod.mk.injEq] at ran
        exact ran.2.symm
      · rw [run_take_some accepted, Prod.mk.injEq] at ran
        obtain ⟨own, rfl⟩ := ran
        exact congrArg some (atomic.clean xs e s (known s rfl) accepted _ _ (Prod.ext own rfl))
  · rw [Update.exec, ran] at failed
    cases failed

theorem holds_of_take (atomic : m.Atomic holds) {xs : List (Example α)} {e : Example α}
    {state next : Option σ} (known : ∀ s ∈ state, holds xs s) (empty : state = none → xs = [])
    (taken : (m.take e).exec state = .ok next) : ∃ s, next = some s ∧ holds (xs ++ [e]) s := by
  have go (s : σ) (known : holds xs s) (taken : (m.take e).exec (some s) = .ok next) :
      ∃ s, next = some s ∧ holds (xs ++ [e]) s := by
    obtain ⟨accepted, reached, absorbed, rfl⟩ := take_some_eq_ok taken
    exact ⟨reached, rfl, atomic.absorb xs e s reached known accepted absorbed⟩
  cases state with
  | none =>
    obtain ⟨start, started, taken⟩ := take_none_eq_ok taken
    obtain rfl := empty rfl
    exact go start (atomic.start start started) taken
  | some s => exact go s (known s rfl) taken

theorem holds_of_took (atomic : m.Atomic holds) {xs : List (Example α)} {state : Option σ}
    (took : m.Took xs state) : (∀ s ∈ state, holds xs s) ∧ (state = none → xs = []) := by
  induction took with
  | empty => exact ⟨nofun, fun _ => rfl⟩
  | start started => exact ⟨by rintro _ ⟨⟩; exact atomic.start _ started, nofun⟩
  | take _ taken ih =>
    obtain ⟨s, rfl, after⟩ := atomic.holds_of_take ih.1 ih.2 taken
    exact ⟨by rintro _ ⟨⟩; exact after, nofun⟩
  | fail _ failed ih => rwa [atomic.left_of_error ih.1 failed]
  | @merge xs ys left right whole _ _ merged ih ih' =>
    rcases left with _ | a
    · cases merged
      rwa [ih.2 rfl, List.nil_append]
    rcases right with _ | b
    · cases merged
      rwa [ih'.2 rfl, List.append_nil]
    · obtain ⟨c, joined, merged⟩ := bind_eq_ok.mp merged
      cases merged
      refine ⟨?_, nofun⟩
      rintro _ ⟨⟩
      exact atomic.join xs ys a b c (ih.1 a rfl) (ih'.1 b rfl) joined

theorem passesOver (atomic : m.Atomic holds) : m.PassesOver := by
  intro xs state took
  refine ⟨fun e cause => atomic.left_of_error (atomic.holds_of_took took).1, fun examples => ?_⟩
  induction examples generalizing xs state with
  | nil => rfl
  | cons e rest ih =>
    rcases ran : (m.take e).run state with ⟨cause | _, next⟩
    · have failed : (m.take e).exec state = .error cause := by rw [Update.exec, ran]
      have same : next = state := by
        rw [← atomic.left_of_error (atomic.holds_of_took took).1 failed, Update.left, ran]
      rw [taken_of_error ran, leaves_of_run ran, same]
      exact ih xs state took
    · have went := Update.exec_of_run ran
      rw [taken_of_ok ran, leaves_of_run ran, fold_cons, went, ok_bind]
      exact ih (xs ++ [e]) next (took.take went)

end Atomic

theorem Took.leaves {xs : List (Example α)} {state : Option σ} (took : m.Took xs state)
    (examples : List (Example α)) :
    m.Took (xs ++ m.taken examples state) (m.leaves examples state) := by
  induction examples generalizing xs state with
  | nil =>
    rw [taken, List.append_nil]
    exact took
  | cons e rest ih =>
    rcases ran : (m.take e).run state with ⟨cause | _, next⟩
    · have failed : (m.take e).exec state = .error cause := by rw [Update.exec, ran]
      have after : (m.take e).left state = next := by rw [Update.left, ran]
      rw [taken_of_error ran, leaves_of_run ran]
      exact ih (after ▸ took.fail failed)
    · rw [taken_of_ok ran, leaves_of_run ran, List.append_cons]
      exact ih (took.take (Update.exec_of_run ran))

end Machine

variable {α : Type} [Scalar α] {d : Nat}

theorem sumParts_ok {β : Type} {add : β → β → Except Error β} {left right : Option β} {sum : β}
    (made : sumParts add left right = .ok sum) :
    ∃ a ∈ left, ∃ b ∈ right, add a b = .ok sum := by
  cases left with
  | none => cases made
  | some a =>
    cases right with
    | none => cases made
    | some b => exact ⟨a, rfl, b, rfl, made⟩

theorem Mat.exists_addTo {total m : Mat α} (left : Square d total) (right : Square d m) :
    ∃ s, addTo total m = .ok s ∧ Square d s := by
  have each (pair) (member : pair ∈ total.zip m) :
      Vec.addTo pair.1 pair.2 = .ok (Vec.add pair.1 pair.2) := by
    obtain ⟨inside, inside'⟩ := List.of_mem_zip member
    exact Vec.addTo_of_length_eq ((left.2 _ inside).trans (right.2 _ inside').symm)
  have made : addTo total m = .ok ((total.zip m).map fun pair => Vec.add pair.1 pair.2) := by
    unfold addTo
    rw [if_pos (left.1.trans right.1.symm)]
    exact mapM_ok each
  exact ⟨_, made, square_addTo left made⟩

namespace Objective

variable {o : Objective} {model : Vec α} {e : Example α}

theorem sized_of_gradient {g : Vec α} (made : o.gradient model e = .ok g) :
    model.length = e.dimension ∧ e.label.isSurvival = false ∧ g.length = e.dimension := by
  rcases known : e.label with value | ⟨time, event⟩
  · cases o with
    | cox => cases made
    | svm =>
      simp only [gradient, known, Label.sign, ok_bind] at made
      obtain ⟨score, scored, made⟩ := bind_eq_ok.mp made
      cases made
      have size := Vec.length_dot? scored
      refine ⟨size, rfl, ?_⟩
      split_ifs <;> simp [size, Example.dimension]
    | logistic =>
      simp only [gradient, known, Label.sign, ok_bind] at made
      obtain ⟨score, scored, made⟩ := bind_eq_ok.mp made
      cases made
      exact ⟨Vec.length_dot? scored, rfl, Vec.length_scale _ _⟩
    | ridge | lasso =>
      obtain ⟨score, scored, made⟩ := bind_eq_ok.mp made
      rw [known] at made
      cases made
      exact ⟨Vec.length_dot? scored, rfl, Vec.length_scale _ _⟩
  · cases o with
    | cox => cases made
    | svm | logistic =>
      rw [gradient, known] at made
      cases made
    | ridge | lasso =>
      obtain ⟨score, -, made⟩ := bind_eq_ok.mp made
      rw [known] at made
      cases made

theorem exists_gradient (separable : o.usesRiskSet = false) (size : model.length = e.dimension)
    (plain : e.label.isSurvival = false) : ∃ g, o.gradient model e = .ok g := by
  have scored : Vec.dot? model e.features = .ok (Vec.dot model e.features) :=
    Vec.dot?_of_length_eq size
  rcases known : e.label with value | ⟨time, event⟩
  · cases o with
    | cox => cases separable
    | svm | logistic | ridge | lasso =>
      simp only [gradient, known, Label.sign, Label.value, scored, ok_bind, pure_ok]
      exact ⟨_, rfl⟩
  · rw [known] at plain
    cases plain

theorem exists_hessian (separable : o.usesRiskSet = false) (curved : o.hasCurvature = true)
    (size : model.length = e.dimension) :
    ∃ h, o.hessian model e = .ok h ∧ h.Square e.dimension := by
  have scored : Vec.dot? model e.features = .ok (Vec.dot model e.features) :=
    Vec.dot?_of_length_eq size
  have square : (Mat.outer e.features e.features).Square e.dimension := Mat.square_outer rfl rfl
  cases o with
  | svm => cases curved
  | cox => cases separable
  | logistic =>
    simp only [hessian, scored, ok_bind, pure_ok]
    exact ⟨_, rfl, Mat.square_scale square⟩
  | ridge | lasso => exact ⟨_, rfl, square⟩

end Objective

namespace Totals

structure Ready (o : Objective) (d : Nat) (t : Totals α) : Prop where
  summed : t.gradient.isSome
  gradient : ∀ g ∈ t.gradient, g.length = d
  hessian : ∀ h ∈ t.hessian, h.Square d ∧ o.hasCurvature = true

variable {o : Objective} {t : Totals α} {model : Vec α} {e : Example α}

theorem exec_addGradient {total g : Vec α} (known : t.gradient = some total)
    (size : total.length = g.length) :
    (addGradient g).exec t = .ok { t with gradient := some (Vec.add total g) } := by
  simp only [addGradient, Update.exec_get_bind, known, Update.exec_ofExcept_bind,
    Vec.addTo_of_length_eq size, ok_bind, Update.exec_modify]

theorem exec_addHessian {total h sum : Mat α} (known : t.hessian = some total)
    (added : Mat.addTo total h = .ok sum) :
    (addHessian h).exec t = .ok { t with hessian := some sum } := by
  simp only [addHessian, Update.exec_get_bind, known, Update.exec_ofExcept_bind, added, ok_bind,
    Update.exec_modify]

theorem Ready.addOwn (separable : o.usesRiskSet = false) (ready : t.Ready o d)
    (size : e.dimension = d) {g : Vec α} (made : o.gradient model e = .ok g) :
    ∃ next, (addOwn o model e).exec t = .ok next ∧ next.Ready o d := by
  obtain ⟨sized, plain, length⟩ := Objective.sized_of_gradient made
  obtain ⟨loss, scored⟩ := Objective.loss_ok separable sized plain
  obtain ⟨total, known⟩ := Option.isSome_iff_exists.mp ready.summed
  have wide := ready.gradient total known
  have same : total.length = g.length := by rw [wide, length, size]
  have wide' : ∀ sum ∈ some (Vec.add total g), sum.length = d := by
    rintro _ ⟨⟩
    exact (Vec.length_add same).trans wide
  simp only [Totals.addOwn, Update.exec_ofExcept_bind, made, ok_bind, Update.exec_bind_unit,
    exec_addGradient known same, scored, addLoss, Update.exec_modify, Update.exec_get_bind]
  cases curvature : t.hessian with
  | none => exact ⟨_, rfl, rfl, wide', by simp⟩
  | some h =>
    obtain ⟨square, curved⟩ := ready.hessian h curvature
    obtain ⟨own, bent, square'⟩ := Objective.exists_hessian separable curved sized
    obtain ⟨sum, added, whole⟩ := Mat.exists_addTo square (size ▸ square')
    simp only [Option.isSome_some, if_true, Update.exec_ofExcept_bind, bent, ok_bind,
      exec_addHessian (t := ⟨t.loss + loss, some (Vec.add total g), some h, t.risk⟩) rfl added]
    exact ⟨_, rfl, rfl, wide', by rintro _ ⟨⟩; exact ⟨whole, curved⟩⟩

theorem Ready.addExample_cases (separable : o.usesRiskSet = false) (ready : t.Ready o d)
    (size : e.dimension = d) :
    (∃ next, (addExample o model e).exec t = .ok next ∧ next.Ready o d) ∨
      ((∃ cause, (addExample o model e).exec t = .error cause) ∧
        (addExample o model e).Clean t) := by
  have own : Totals.addExample o model e = Totals.addOwn o model e := by
    rw [addExample, separable]
    rfl
  rw [own]
  cases made : o.gradient model e with
  | ok g => exact .inl (ready.addOwn separable size made)
  | error cause =>
    refine .inr ⟨⟨cause, ?_⟩, .ofExcept_bind fun g given => ?_⟩
    · rw [Totals.addOwn, Update.exec_ofExcept_bind, made]
      rfl
    · rw [made] at given
      cases given

theorem ready_firstOrder : (firstOrder d : Totals α).Ready o d :=
  ⟨rfl, by rintro _ ⟨⟩; exact Vec.length_zeros d, nofun⟩

theorem ready_secondOrder (curved : o.hasCurvature = true) :
    (secondOrder d : Totals α).Ready o d := by
  have ready : (firstOrder d : Totals α).Ready o d := ready_firstOrder
  exact ⟨ready.summed, ready.gradient, by rintro _ ⟨⟩; exact ⟨Mat.square_zeros, curved⟩⟩

end Totals

namespace Strategy

structure Collects (s : Strategy α) (o : Objective) : Prop where
  separable : o.usesRiskSet = false
  totals : s.totals.Ready o s.origin.task.dimension
  step : ∀ e, s.step e = get >>= fun state : PassState α =>
    Update.onPart PassState.totals (fun totals state => { state with totals := totals })
      (Totals.addExample o state.model e)
  joined : ∀ left right model t, left.totals.Ready o s.origin.task.dimension →
    right.totals.Ready o s.origin.task.dimension → s.joined left right = .ok (model, t) →
    t.Ready o s.origin.task.dimension

variable {s : Strategy α} {o : Objective}

theorem Collects.atomic (collects : s.Collects o) :
    s.machine.Atomic fun _ state => state.totals.Ready o s.origin.task.dimension where
  start := by
    intro state started
    obtain ⟨_, -, started⟩ := bind_eq_ok.mp started
    cases started
    exact collects.totals
  absorb := by
    intro xs e state next ready accepted absorbed
    change (s.absorb e).exec state = .ok next at absorbed
    rw [exec_absorb, collects.step, Update.exec_get_bind, Update.exec_onPart] at absorbed
    rcases ready.addExample_cases collects.separable (dimension_of_accepts accepted) with
      ⟨t, added, after⟩ | ⟨⟨cause, failed⟩, -⟩
    · rw [added] at absorbed
      cases absorbed
      exact after
    · rw [failed] at absorbed
      cases absorbed
  join := by
    intro xs ys left right whole before after joined
    change s.join left right = .ok whole at joined
    unfold Strategy.join at joined
    split_ifs at joined
    obtain ⟨⟨model, t⟩, made, joined⟩ := bind_eq_ok.mp joined
    cases joined
    exact collects.joined left right model t before after made
  clean := by
    intro xs e state ready accepted
    change (s.absorb e).Clean state
    refine .bind_modify ?_ _
    rw [collects.step]
    refine .get_bind (.onPart ?_ rfl)
    rcases ready.addExample_cases collects.separable (dimension_of_accepts accepted) with
      ⟨t, added, -⟩ | ⟨-, clean⟩
    · exact .of_exec added
    · exact clean

end Strategy

theorem Conjugate.collects (c : Conjugate α) : c.strategy.Collects c.objective where
  separable := c.separable
  totals := Totals.ready_firstOrder
  step _ := rfl
  joined := by
    intro left right model t before after made
    obtain ⟨g, summed, made⟩ := bind_eq_ok.mp made
    cases made
    obtain ⟨a, known, b, known', summed⟩ := sumParts_ok summed
    refine ⟨rfl, ?_, nofun⟩
    rintro _ ⟨⟩
    exact Vec.length_combine (before.gradient a known) (after.gradient b known') summed

theorem Newton.collects [DenseSolver α] (n : Newton α) (separable : n.objective ≠ .cox) :
    n.strategy.Collects n.objective where
  separable := Objective.usesRiskSet_eq_false separable
  totals := Totals.ready_secondOrder n.curved
  step _ := rfl
  joined := by
    intro left right model t before after made
    change Newton.joined left right = .ok (model, t) at made
    unfold Newton.joined at made
    split_ifs at made
    · cases made
    obtain ⟨g, summed, made⟩ := bind_eq_ok.mp made
    obtain ⟨h, bent, made⟩ := bind_eq_ok.mp made
    cases made
    obtain ⟨a, known, b, known', summed⟩ := sumParts_ok summed
    obtain ⟨p, given, q, given', bent⟩ := sumParts_ok bent
    refine ⟨rfl, ?_, ?_⟩
    · rintro _ ⟨⟩
      exact Vec.length_combine (before.gradient a known) (after.gradient b known') summed
    · rintro _ ⟨⟩
      obtain ⟨square, curved⟩ := before.hessian p given
      exact ⟨Mat.square_combine square (after.hessian q given').1 bent, curved⟩

theorem Penalty.length_smoothGradient {penalty : Penalty} {weight : α} {model g : Vec α}
    (made : penalty.smoothGradient weight model = .ok g) : g.length = model.length := by
  cases penalty with
  | l1 =>
    cases made
    exact Vec.length_zeros _
  | l2 =>
    obtain ⟨_, -, made⟩ := bind_eq_ok.mp made
    cases made
    exact Vec.length_scale _ _

theorem Penalty.length_shrink {penalty : Penalty} {stepsize weight : α} {model v : Vec α}
    (made : penalty.shrink stepsize weight model = .ok v) : v.length = model.length := by
  cases penalty with
  | l1 =>
    obtain ⟨_, -, made⟩ := bind_eq_ok.mp made
    obtain ⟨_, -, made⟩ := bind_eq_ok.mp made
    obtain ⟨_, -, made⟩ := bind_eq_ok.mp made
    cases made
    exact List.length_map _
  | l2 =>
    cases made
    rfl

namespace Incremental

variable {i : Incremental α} {o : Objective} {task : Task α} {model next : Vec α} {e : Example α}

theorem alike_of_moved (made : moved o task model e = .ok next) :
    model.length = e.dimension ∧ e.label.isSurvival = false ∧ next.length = e.dimension := by
  obtain ⟨own, sloped, made⟩ := bind_eq_ok.mp made
  obtain ⟨smooth, bent, made⟩ := bind_eq_ok.mp made
  obtain ⟨gradient, added, made⟩ := bind_eq_ok.mp made
  obtain ⟨stepsize, -, made⟩ := bind_eq_ok.mp made
  obtain ⟨stepped, moved, made⟩ := bind_eq_ok.mp made
  obtain ⟨size, plain, length⟩ := Objective.sized_of_gradient sloped
  have wide := Vec.length_combine length ((Penalty.length_smoothGradient bent).trans size) added
  have after := Vec.length_combine size ((Vec.length_scale _ _).trans wide) moved
  exact ⟨size, plain, (Penalty.length_shrink made).trans after⟩

theorem exists_step {state : PassState α}
    (made : moved i.objective state.task state.model e = .ok next) :
    ∃ after, (i.step e).exec state = .ok after := by
  obtain ⟨-, plain, size⟩ := alike_of_moved made
  obtain ⟨loss, scored⟩ := Objective.loss_ok (o := i.objective) i.separable size plain
  simp only [step, Update.exec_get_bind, Update.exec_ofExcept_bind, made, ok_bind,
    Update.exec_bind_unit, Update.exec_modify, scored]
  exact ⟨_, rfl⟩

theorem absorb_clean (e : Example α) (state : PassState α) : (i.machine.absorb e).Clean state := by
  change (i.strategy.absorb e).Clean state
  refine .bind_modify ?_ _
  cases made : moved i.objective state.task state.model e with
  | error cause =>
    refine .get_bind (.ofExcept_bind fun model given => ?_)
    rw [made] at given
    cases given
  | ok model =>
    obtain ⟨after, stepped⟩ := exists_step made
    exact .of_exec stepped

theorem atomic (i : Incremental α) : i.machine.Atomic fun _ _ => True :=
  ⟨fun _ _ => trivial, fun _ _ _ _ _ _ _ => trivial, fun _ _ _ _ _ _ _ _ => trivial,
    fun _ e state _ _ => absorb_clean e state⟩

end Incremental

theorem Optimizer.passesOver [DenseSolver α] {o : Optimizer α}
    (separable : o.origin.task.objective ≠ .cox) : o.machine.PassesOver := by
  cases o with
  | incremental i => exact i.atomic.passesOver
  | conjugate c => exact c.collects.atomic.passesOver
  | newton n => exact (n.collects separable).atomic.passesOver

namespace Search

variable {s : Search α} {P : Vec α → List (Example α) → α → Prop}

structure Kept (s : Search α) (P : Vec α → List (Example α) → α → Prop) (xs : List (Example α))
    (state : List (Candidate α)) : Prop where
  carried : s.Carried P xs state
  stepsizes : List.Forall₂ (fun first c : Candidate α => c.stepsize = first.stepsize) s.start state

theorem exec_candidate {o : Objective} {e : Example α} {c next : Candidate α}
    (taken : (Candidate.absorb o e).exec c = .ok next) : next.stepsize = c.stepsize := by
  rw [Candidate.exec_absorb] at taken
  cases made : o.loss c.model e with
  | error cause =>
    rw [made] at taken
    cases taken
  | ok loss =>
    rw [made] at taken
    cases taken
    rfl

theorem candidate_clean (o : Objective) (e : Example α) (c : Candidate α) :
    (Candidate.absorb o e).Clean c :=
  .get_bind (.ofExcept_bind fun _ _ => .of_exec (Update.exec_modify _ _))

theorem absorb_clean (sums : s.Sums P) {xs : List (Example α)} {state : List (Candidate α)}
    (carried : s.Carried P xs state) {e : Example α} (size : e.dimension = s.task.dimension) :
    (s.absorb e).Clean state := by
  refine .each ?_
  cases survival : e.label.isSurvival with
  | false =>
    obtain ⟨-, next, absorbed⟩ := (follows sums).absorbs xs e state ⟨size, survival⟩ carried
    exact .inl ⟨next, absorbed⟩
  | true =>
    refine .inr fun k c _ => ⟨candidate_clean _ e c, ?_⟩
    rw [Candidate.exec_absorb]
    cases made : s.task.objective.loss c.model e with
    | error cause => exact ⟨cause, rfl⟩
    | ok loss =>
      rw [(Objective.alike_of_loss made).2] at survival
      cases survival

theorem atomic (sums : s.Sums P) : s.machine.Atomic (s.Kept P) where
  start := by
    rintro _ ⟨⟩
    exact ⟨.start sums, List.forall₂_same.mpr fun _ _ => rfl⟩
  absorb xs e state next kept accepted absorbed := by
    refine ⟨kept.carried.absorb sums accepted absorbed, ?_⟩
    refine Update.forall₂_of_exec_each kept.stepsizes ?_ absorbed
    exact fun _ _ c moved _ same taken => (exec_candidate taken).trans same
  join xs ys left right whole before after joined := by
    obtain ⟨both, same, carried⟩ := before.carried.join sums after.carried
    obtain rfl : whole = both := by simpa using joined.symm.trans same
    refine ⟨carried, ?_⟩
    change join left right = _ at joined
    unfold join at joined
    split_ifs at joined
    cases joined
    exact forall₂_zipWith before.stepsizes after.stepsizes fun _ _ _ same _ => same
  clean xs e state kept accepted := by
    have size : e.dimension = s.task.dimension := by
      change s.accepts e = .ok () at accepted
      unfold accepts at accepted
      split_ifs at accepted with size
      exact size
    exact absorb_clean sums kept.carried size

end Search

def Origin.width (origin : Origin α) : Nat :=
  origin.previous.elim origin.task.dimension (·.model.length)

theorem Origin.length_of_start {origin : Origin α} {state : PassState α}
    (started : origin.start = .ok state) : state.model.length = origin.width := by
  unfold start at started
  unfold width
  cases known : origin.previous with
  | none =>
    rw [known] at started
    cases started
    exact Vec.length_zeros _
  | some s =>
    rw [known] at started
    dsimp only at started
    split_ifs at started
    cases started
    rfl

namespace Penalty

variable [Scalar.Plain α]

theorem exists_smoothGradient (p : Penalty) (weight : α) (model : Vec α) :
    ∃ g, p.smoothGradient weight model = .ok g := by
  cases p with
  | l1 => exact ⟨_, rfl⟩
  | l2 => exact ⟨_, by rw [smoothGradient, Scalar.Plain.factor_ok]; rfl⟩

theorem exists_shrink (p : Penalty) (stepsize weight : α) (model : Vec α) :
    ∃ v, p.shrink stepsize weight model = .ok v := by
  cases p with
  | l1 =>
    simp only [shrink, softThreshold, Scalar.Plain.operand_ok, Scalar.Plain.factor_ok, ok_bind]
    exact ⟨_, rfl⟩
  | l2 => exact ⟨_, rfl⟩

end Penalty

namespace Incremental

variable {i : Incremental α} {e : Example α} {state next : PassState α}

theorem moved_of_absorb (absorbed : (i.machine.absorb e).exec state = .ok next) :
    moved i.objective state.task state.model e = .ok next.model := by
  change (i.strategy.absorb e).exec state = .ok next at absorbed
  rw [Strategy.exec_absorb] at absorbed
  change _ <$> (i.step e).exec state = _ at absorbed
  simp only [step, Update.exec_get_bind, Update.exec_ofExcept_bind, Update.exec_bind_unit,
    Update.exec_modify, ok_bind] at absorbed
  cases made : moved i.objective state.task state.model e with
  | error cause =>
    rw [made] at absorbed
    cases absorbed
  | ok model =>
    rw [made, ok_bind] at absorbed
    cases scored : i.objective.loss model e with
    | error cause =>
      rw [scored] at absorbed
      cases absorbed
    | ok loss =>
      rw [scored] at absorbed
      cases absorbed
      rfl

theorem exists_moved [Scalar.Plain α] {o : Objective} (separable : o.usesRiskSet = false)
    (task : Task α) {model : Vec α} (size : model.length = e.dimension)
    (plain : e.label.isSurvival = false) : ∃ next, moved o task model e = .ok next := by
  obtain ⟨own, sloped⟩ := Objective.exists_gradient separable size plain
  obtain ⟨-, -, length⟩ := Objective.sized_of_gradient sloped
  obtain ⟨smooth, bent⟩ := o.penalty.exists_smoothGradient task.regularization model
  have same : own.length = smooth.length := by
    rw [length, Penalty.length_smoothGradient bent, size]
  have added : Vec.add? own smooth = .ok (List.zipWith (· + ·) own smooth) :=
    Vec.combine_of_length_eq _ same
  have wide : model.length =
      (Vec.scale task.stepsize (List.zipWith (· + ·) own smooth)).length := by
    rw [Vec.length_scale, List.length_zipWith, ← same, Nat.min_self, length, size]
  simp only [moved, sloped, bent, added, Scalar.Plain.factor_ok, ok_bind,
    Vec.combine_of_length_eq _ wide]
  exact o.penalty.exists_shrink _ _ _

theorem exec_admit_iff [Scalar.Plain α] :
    (∃ next, (i.machine.accepts e >>= fun _ => (i.machine.absorb e).exec state) = .ok next) ↔
      e.Alike i.origin.task.dimension false ∧ state.model.length = e.dimension := by
  constructor
  · rintro ⟨next, done⟩
    obtain ⟨_, accepted, absorbed⟩ := bind_eq_ok.mp done
    obtain ⟨size, plain, -⟩ := alike_of_moved (moved_of_absorb absorbed)
    exact ⟨⟨Strategy.dimension_of_accepts accepted, plain⟩, size⟩
  · rintro ⟨⟨dimension, plain⟩, size⟩
    have accepted : i.machine.accepts e = .ok () := if_pos dimension
    obtain ⟨model, made⟩ := exists_moved (o := i.objective) i.separable state.task size plain
    obtain ⟨after, stepped⟩ := exists_step made
    change ∃ next, (i.machine.accepts e >>= fun _ => (i.strategy.absorb e).exec state) = .ok next
    have stepped : (i.strategy.step e).exec state = .ok after := stepped
    rw [accepted, ok_bind, Strategy.exec_absorb, stepped]
    exact ⟨_, rfl⟩

end Incremental

namespace Trials

variable {t : Trials α} {d width : Nat}

def Kept (t : Trials α) (width : Nat) (xs : List (Example α)) (states : List (PassState α)) :
    Prop :=
  List.Forall₂ (fun i state => state.Counted i.origin xs.length ∧ state.model.length = width)
    t.trials states

theorem absorb_clean [Scalar.Plain α] (sized : ∀ i ∈ t.trials, i.origin.task.dimension = d)
    {xs : List (Example α)} {states : List (PassState α)} (kept : t.Kept width xs states)
    (e : Example α) : (t.absorb e).Clean states := by
  refine .each ?_
  by_cases good : e.Alike d false ∧ width = e.dimension
  · refine .inl (Update.exists_exec_each kept fun k i state place ⟨_, length⟩ => ?_)
    rw [place]
    dsimp only
    rw [Update.exec_ofExcept_bind]
    have alike := good.1
    rw [← sized i (List.mem_of_getElem? place)] at alike
    exact Incremental.exec_admit_iff.mpr ⟨alike, length.trans good.2⟩
  · refine .inr fun k state here => ?_
    obtain ⟨i, place, -, length⟩ := getElem?_forall₂ kept.flip here
    rw [place]
    refine ⟨.ofExcept_bind fun _ _ => Incremental.absorb_clean e state, ?_⟩
    rw [Update.exec_ofExcept_bind]
    cases done : i.machine.accepts e >>= fun _ => (i.machine.absorb e).exec state with
    | error cause => exact ⟨cause, rfl⟩
    | ok next =>
      obtain ⟨alike, size⟩ := Incremental.exec_admit_iff.mp ⟨next, done⟩
      rw [sized i (List.mem_of_getElem? place)] at alike
      exact absurd ⟨alike, length.symm.trans size⟩ good

theorem atomic [Scalar.Plain α] (sized : ∀ i ∈ t.trials, i.origin.task.dimension = d)
    (wide : ∀ i ∈ t.trials, i.origin.width = width) : t.machine.Atomic (t.Kept width) where
  start := by
    intro states started
    have begun := forall₂_of_mapM started
    refine List.forall₂_iff_zip.mpr ⟨begun.length_eq, fun {i state} member => ?_⟩
    have own := (List.forall₂_iff_zip.mp begun).2 member
    refine ⟨i.counting.counts.start state own, ?_⟩
    obtain ⟨first, started, own⟩ := bind_eq_ok.mp own
    cases own
    exact (Origin.length_of_start started).trans (wide i (List.of_mem_zip member).1)
  absorb := by
    intro xs e states next kept _ absorbed
    refine Update.forall₂_of_exec_each kept ?_ absorbed
    rintro k i state moved here ⟨counted, length⟩ taken
    rw [here] at taken
    dsimp only at taken
    rw [Update.exec_ofExcept_bind] at taken
    obtain ⟨_, accepted, taken⟩ := bind_eq_ok.mp taken
    rw [List.length_append]
    refine ⟨i.counting.counts.absorb _ e state moved counted accepted taken, ?_⟩
    obtain ⟨size, -, after⟩ := Incremental.alike_of_moved (Incremental.moved_of_absorb taken)
    rw [after, ← size, length]
  join := by
    intro xs ys left right whole before after joined
    rw [Kept, List.length_append]
    refine forall₂_of_join before after ?_ joined
    rintro i a b c ⟨counted, length⟩ ⟨counted', length'⟩ merged
    exact ⟨i.counting.counts.join _ _ a b c counted counted' merged,
      Incremental.length_of_join merged length length'⟩
  clean _ e _ kept _ := absorb_clean sized kept e

theorem sized_of_make {task : Task α} {stepsizes : List α} {previous : Option (Snapshot α)}
    (made : make task stepsizes previous = .ok t) : t.trials.length = stepsizes.length ∧
      ∃ width, ∀ i ∈ t.trials, i.origin.task.dimension = task.dimension ∧
        i.origin.width = width := by
  refine ⟨(of_make made).2.2.1, previous.elim task.dimension (·.model.length), fun i member => ?_⟩
  obtain ⟨size, same⟩ := make_ok made i member
  exact ⟨size, by rw [Origin.width, same, size]⟩

end Trials

theorem Search.sums_losses {α : Type} [Exact α] (s : Search α) :
    s.Sums fun model xs total =>
      ∃ losses, xs.mapM (s.task.objective.loss model) = .ok losses ∧ total = losses.sum where
  none _ := ⟨[], rfl, rfl⟩
  snoc model xs e total loss := by
    rintro ⟨losses, made, rfl⟩ scored
    refine ⟨losses ++ [loss], ?_, by simp⟩
    rw [List.mapM_append, made, ok_bind, List.mapM_cons, scored]
    rfl
  append model xs ys total total' := by
    rintro ⟨losses, made, rfl⟩ ⟨losses', made', rfl⟩
    refine ⟨losses ++ losses', ?_, by simp⟩
    rw [List.mapM_append, made, ok_bind, made']
    rfl

theorem failures_leave_no_trace [DenseSolver α] :
    (∀ o : Optimizer α, o.origin.task.objective ≠ .cox → o.machine.PassesOver) ∧
    (∀ s : Search α, s.machine.PassesOver ∧ ∀ xs state, s.machine.Took xs (some state) →
      List.Forall₂ (fun model c => c.model = model ∧ c.rows = (xs.length : Int)) s.models state ∧
      List.Forall₂ (fun first c => c.stepsize = first.stepsize) s.start state) ∧
    (∀ [Scalar.Plain α] (task : Task α) (stepsizes : List α) (previous : Option (Snapshot α)) t,
      Trials.make task stepsizes previous = .ok t → t.machine.PassesOver ∧
      ∀ xs states, t.machine.Took xs (some states) → states.length = stepsizes.length ∧
        ∀ state ∈ states, state.rows = (xs.length : Int)) ∧
    ∀ (β : Type) [Exact β] (s : Search β) (xs) (state), s.machine.Took xs (some state) →
      List.Forall₂ (fun model c => ∃ losses,
        xs.mapM (s.task.objective.loss model) = .ok losses ∧ c.loss = losses.sum)
        s.models state := by
  refine ⟨fun _ => Optimizer.passesOver, fun s => ?_, ?_, ?_⟩
  · have atomic := Search.atomic s.sums_trivial
    refine ⟨atomic.passesOver, fun xs state took => ?_⟩
    have kept := (atomic.holds_of_took took).1 state rfl
    exact ⟨kept.carried.each.imp fun _ _ known => ⟨known.1, known.2.1⟩, kept.stepsizes⟩
  · intro plain task stepsizes previous t made
    obtain ⟨count, width, sized⟩ := Trials.sized_of_make made
    have atomic := Trials.atomic (fun i member => (sized i member).1) fun i member =>
      (sized i member).2
    refine ⟨atomic.passesOver, fun xs states took => ?_⟩
    have kept := (atomic.holds_of_took took).1 states rfl
    refine ⟨kept.length_eq.symm.trans count, fun state member => ?_⟩
    obtain ⟨i, -, counted, -⟩ := exists_of_forall₂ kept member
    exact PassState.Counted.rows counted
  · intro β exact s xs state took
    have kept := ((Search.atomic s.sums_losses).holds_of_took took).1 state rfl
    exact kept.carried.each.imp fun _ _ known => known.2.2

namespace Gaps

def mixed : List (Example Float) :=
  [⟨[1], .plain 1⟩, ⟨[1, 2], .plain 1⟩, ⟨[1], .survival 1 true⟩, ⟨[2], .plain 3⟩]

def fitting : List (Example Float) := [⟨[1], .plain 1⟩, ⟨[2], .plain 3⟩]

noncomputable def single : Search ℝ :=
  ⟨.unit .ridge, [[1]], none, Nat.one_pos, nofun, rfl, by simp [Task.unit]⟩

theorem took_fitting {σ ρ : Type} {m : Machine Float σ ρ} (passes : m.PassesOver)
    (taken : m.taken mixed none = fitting) {state : σ} (left : m.leaves mixed none = some state) :
    m.Took fitting (some state) ∧ m.fold fitting none = .ok (some state) := by
  have took := Machine.Took.empty.leaves mixed (m := m)
  have passed := (passes [] none .empty).2 mixed
  rw [taken, left] at took passed
  exact ⟨took, passed⟩

theorem failures_leave_no_trace_mixed :
    (∀ o ∈ optimizers, o.origin.task.objective ≠ .cox ∧ o.machine.taken mixed none = fitting ∧
      o.machine.fold fitting none = .ok (o.machine.leaves mixed none)) ∧
    (∃ state, search.machine.Took fitting (some state) ∧
      search.machine.fold fitting none = .ok (some state) ∧ state.length = 2 ∧
      ∀ c ∈ state, c.rows = 2) ∧
    (∃ t states, Trials.make task [1, 1] none = .ok t ∧ t.machine.Took fitting (some states) ∧
      t.machine.fold fitting none = .ok (some states) ∧ states.length = 2 ∧
      ∀ state ∈ states, state.rows = 2) ∧
    ∃ state, single.machine.Took [⟨[1], .plain 1⟩] (some state) ∧
      List.Forall₂ (fun model c => ∃ losses,
        [⟨[1], .plain 1⟩].mapM (single.task.objective.loss model) = .ok losses ∧
          c.loss = losses.sum) single.models state := by
  obtain ⟨fixed, searches, trials, -⟩ := failures_leave_no_trace (α := Float)
  refine ⟨fun o member => ?_, ?_, ?_, ?_⟩
  · have all : ∀ o ∈ optimizers, o.origin.task.objective ≠ .cox ∧
        o.machine.taken mixed none = fitting := by decide +kernel
    obtain ⟨separable, taken⟩ := all o member
    have passed := (fixed o separable [] none .empty).2 mixed
    rw [taken] at passed
    exact ⟨separable, taken, passed⟩
  · obtain ⟨passes, kept⟩ := searches search
    have taken : search.machine.taken mixed none = fitting := by decide +kernel
    obtain ⟨state, left⟩ : ∃ state, search.machine.leaves mixed none = some state :=
      Option.isSome_iff_exists.mp (by decide +kernel)
    obtain ⟨took, passed⟩ := took_fitting passes taken left
    obtain ⟨each, -⟩ := kept fitting state took
    refine ⟨state, took, passed, each.length_eq.symm, fun c member => ?_⟩
    obtain ⟨model, -, -, rows⟩ := exists_of_forall₂ each member
    exact rows
  · have given : task.withStepsize 1 = .ok task := task.make_of_task
    have made : Trials.make task [1, 1] none = .ok Gaps.trials := by
      rw [Trials.make, if_neg (by simp)]
      simp only [List.mapM_cons, List.mapM_nil, given, ok_bind]
      rfl
    obtain ⟨passes, kept⟩ := trials task [1, 1] none Gaps.trials made
    have taken : Gaps.trials.machine.taken mixed none = fitting := by decide +kernel
    obtain ⟨states, left⟩ : ∃ states, Gaps.trials.machine.leaves mixed none = some states :=
      Option.isSome_iff_exists.mp (by decide +kernel)
    obtain ⟨took, passed⟩ := took_fitting passes taken left
    obtain ⟨count, rows⟩ := kept fitting states took
    exact ⟨Gaps.trials, states, made, took, passed, count, rows⟩
  · have good : ∀ e ∈ [(⟨[1], .plain 1⟩ : Example ℝ)], e.Alike single.task.dimension false := by
      rintro _ (_ | ⟨_, ⟨⟩⟩)
      exact ⟨rfl, rfl⟩
    obtain ⟨last, folded, stands⟩ := (Search.follows single.sums_losses).fold_none good
    obtain ⟨next, taken, folded⟩ := bind_eq_ok.mp folded
    cases folded
    cases last with
    | none => cases stands
    | some state =>
      have took := Machine.Took.empty.take taken
      exact ⟨state, took, (failures_leave_no_trace (α := ℝ)).2.2.2 ℝ single _ state took⟩

end Gaps

end Passwise
