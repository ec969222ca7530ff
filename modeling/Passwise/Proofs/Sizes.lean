import Passwise.Newton
import Passwise.Proofs.Update

set_option autoImplicit false

namespace Passwise

variable {α : Type} {d : Nat}

namespace Vec

theorem length_combine {op : α → α → α} {u v s : Vec α} (left : u.length = d)
    (right : v.length = d) (made : combine op u v = .ok s) : s.length = d := by
  rw [combine_of_length_eq op (left.trans right.symm)] at made
  cases made
  simp [left, right]

variable [Scalar α]

theorem length_addTo {total v s : Vec α} (made : addTo total v = .ok s) :
    s.length = total.length := by
  unfold addTo at made
  split_ifs at made with same
  · cases made
    exact length_add same
  · split at made
    · cases made
      simp
    · cases made

theorem length_dot? {u v : Vec α} {x : α} (made : dot? u v = .ok x) : u.length = v.length := by
  by_contra other
  rw [dot?, if_neg other] at made
  cases made

end Vec

namespace Mat

def Square (d : Nat) (m : Mat α) : Prop := m.length = d ∧ ∀ row ∈ m, row.length = d

theorem square_zipWith {op : Vec α → Vec α → Vec α}
    (keeps : ∀ u v, u.length = d → v.length = d → (op u v).length = d) {m n : Mat α}
    (left : Square d m) (right : Square d n) : Square d (List.zipWith op m n) := by
  refine ⟨by simp [left.1, right.1], fun row member => ?_⟩
  obtain ⟨u, v, pair, rfl⟩ : ∃ u v, (u, v) ∈ m.zip n ∧ op u v = row := by
    rw [← List.map_uncurry_zip_eq_zipWith] at member
    simpa using member
  exact keeps u v (left.2 u (List.of_mem_zip pair).1) (right.2 v (List.of_mem_zip pair).2)

theorem square_map {op : Vec α → Vec α} (keeps : ∀ v, v.length = d → (op v).length = d)
    {m : Mat α} (square : Square d m) : Square d (m.map op) := by
  refine ⟨by simpa using square.1, fun row member => ?_⟩
  obtain ⟨v, inside, rfl⟩ := List.mem_map.mp member
  exact keeps v (square.2 v inside)

theorem square_mapM {β : Type} {f : β → Except Error (Vec α)} {rows : List β} {m : Mat α}
    (made : rows.mapM f = .ok m) (count : rows.length = d)
    (size : ∀ row ∈ rows, ∀ v, f row = .ok v → v.length = d) : Square d m := by
  refine ⟨(forall₂_of_mapM made).length_eq ▸ count, fun v member => ?_⟩
  obtain ⟨row, inside, same⟩ := exists_of_mem_mapM made member
  exact size row inside v same

theorem square_combine {op : α → α → α} {a b s : Mat α} (left : Square d a) (right : Square d b)
    (made : combine op a b = .ok s) : Square d s := by
  unfold combine at made
  rw [if_pos (left.1.trans right.1.symm)] at made
  refine square_mapM made (by simp [left.1, right.1]) ?_
  rintro ⟨u, v⟩ member w sum
  exact Vec.length_combine (left.2 u (List.of_mem_zip member).1)
    (right.2 v (List.of_mem_zip member).2) sum

theorem length_diagonal {m : Mat α} (square : Square d m) : (diagonal m).length = d := by
  have inside (pair : Vec α × Nat) (member : pair ∈ m.zipIdx) : (pair.1[pair.2]?).isSome := by
    obtain ⟨row, i⟩ := pair
    obtain ⟨below, here⟩ := List.mem_zipIdx' member
    rw [square.1] at below
    have size : row.length = d := square.2 row (here ▸ List.getElem_mem _)
    simpa [size] using below
  rw [diagonal, List.length_filterMap_eq_countP, List.countP_eq_length.mpr inside,
    List.length_zipIdx, square.1]

variable [Scalar α]

theorem square_zeros : Square d (zeros d : Mat α) := by
  simp [Square, zeros]

theorem square_identity : Square d (identity d : Mat α) := by
  simp [Square, identity]

theorem square_outer {u v : Vec α} (left : u.length = d) (right : v.length = d) :
    Square d (outer u v) := by
  refine ⟨by simpa [outer] using left, fun row member => ?_⟩
  obtain ⟨a, _, rfl⟩ := List.mem_map.mp member
  simpa using right

theorem square_scale {c : α} {m : Mat α} (square : Square d m) : Square d (scale c m) :=
  square_map (fun v size => by simpa using size) square

theorem square_sub {m n : Mat α} (left : Square d m) (right : Square d n) : Square d (sub m n) :=
  square_zipWith (fun u v hu hv => by rw [Vec.length_sub (hu.trans hv.symm), hu]) left right

theorem square_addTo {total m s : Mat α} (square : Square d total)
    (made : addTo total m = .ok s) : Square d s := by
  unfold addTo at made
  split_ifs at made with same
  · refine square_mapM made (by simp [← same, square.1]) ?_
    rintro ⟨u, v⟩ member w sum
    rw [Vec.length_addTo sum, square.2 u (List.of_mem_zip member).1]
  · split at made
    · exact square_mapM made square.1 fun u member w sum => by
        rw [Vec.length_addTo sum, square.2 u member]
    · cases made

end Mat

variable [Scalar α]

theorem Penalty.length_gradient {penalty : Penalty} {weight : α} {model g : Vec α}
    (made : penalty.gradient weight model = .ok g) : g.length = model.length := by
  obtain ⟨_, _, made⟩ := bind_eq_ok.mp made
  cases penalty with
  | l1 =>
    cases made
    simp
  | l2 =>
    cases made
    simp

theorem Penalty.square_hessian {penalty : Penalty} {weight : α} {m : Mat α}
    (made : penalty.hessian weight d = .ok m) : m.Square d := by
  cases penalty with
  | l1 => cases made
  | l2 =>
    obtain ⟨_, _, made⟩ := bind_eq_ok.mp made
    cases made
    exact Mat.square_scale Mat.square_identity

theorem Objective.length_of_loss {o : Objective} {model : Vec α} {e : Example α} {x : α}
    (made : o.loss model e = .ok x) : model.length = e.dimension := by
  cases o with
  | cox => cases made
  | svm | logistic =>
    obtain ⟨_, _, made⟩ := bind_eq_ok.mp made
    obtain ⟨_, scored, _⟩ := bind_eq_ok.mp made
    exact Vec.length_dot? scored
  | ridge | lasso =>
    obtain ⟨_, scored, _⟩ := bind_eq_ok.mp made
    exact Vec.length_dot? scored

structure Contribution.Fits (d : Nat) (c : Contribution α) : Prop where
  gradient : c.gradient.length = d
  hessian : c.hessian.Square d

structure WeightSums.Fits (d : Nat) (s : WeightSums α) : Prop where
  first : s.first.length = d
  second : s.second.Square d

namespace WeightSums

theorem fits_zero : (zero d : WeightSums α).Fits d := ⟨by simp [zero], Mat.square_zeros⟩

theorem Fits.add {s t : WeightSums α} (left : s.Fits d) (right : t.Fits d) : (s.add t).Fits d where
  first := by rw [WeightSums.add, Vec.length_add (left.first.trans right.first.symm), left.first]
  second := Mat.square_zipWith (fun u v hu hv => by rw [Vec.length_add (hu.trans hv.symm), hu])
    left.second right.second

end WeightSums

namespace RiskSet

structure Fits (d : Nat) (r : RiskSet α) : Prop where
  dimension : r.dimension = d
  closed : r.closed.Fits d
  group : r.group.Fits d
  deathFeatures : r.deathFeatures.length = d

theorem fits_empty : (empty d : RiskSet α).Fits d :=
  ⟨rfl, WeightSums.fits_zero, WeightSums.fits_zero, by simp [empty]⟩

theorem Fits.contribution {r : RiskSet α} (fits : r.Fits d) {c : Contribution α}
    (made : r.contribution = .ok c) : c.Fits d := by
  unfold RiskSet.contribution at made
  split_ifs at made with deathless
  · cases made
    rw [fits.dimension]
    exact ⟨by simp, Mat.square_zeros⟩
  · cases made
    have mean : (r.closed.first.map (· / r.closed.weight)).length = d := by
      simpa using fits.closed.first
    refine ⟨?_, Mat.square_scale (Mat.square_sub (Mat.square_map ?_ fits.closed.second)
      (Mat.square_outer mean mean))⟩
    · rw [Vec.length_neg, Vec.length_sub (by simp [fits.deathFeatures, fits.closed.first]),
        fits.deathFeatures]
    · exact fun v size => by simpa using size

theorem absorbGroup_fits :
    Update.Ensures (Fits d) (absorbGroup : Update (RiskSet α) _)
      fun c r => c.Fits d ∧ r.Fits d := by
  refine .bind (Q := fun _ r => r.Fits d) (.modify fun r fits => ?_) fun _ =>
    .bind (Q := fun r' r => r = r' ∧ r.Fits d) (.get fun r fits => ⟨rfl, fits⟩) fun r' =>
    .bind (Q := fun c r => c.Fits d ∧ r.Fits d) (.ofExcept ?_) fun c =>
    .bind (Q := fun _ r => c.Fits d ∧ r.Fits d) (.modify ?_) fun _ => .pure fun _ fits => fits
  · exact ⟨fits.dimension, fits.closed.add fits.group, fits.group, fits.deathFeatures⟩
  · rintro r c ⟨rfl, fits⟩ made
    exact ⟨fits.contribution made, fits⟩
  · rintro r ⟨contribution, fits⟩
    have empty := WeightSums.fits_zero (α := α) (d := r.dimension)
    exact ⟨contribution, fits.dimension, fits.closed, fits.dimension ▸ empty,
      (Vec.length_zeros _).trans fits.dimension⟩

theorem advance_fits (time : α) :
    Update.Ensures (Fits d) (advance time) fun c r => (∀ c' ∈ c, c'.Fits d) ∧ r.Fits d := by
  refine .bind (Q := fun _ r => r.Fits d) (.get fun _ fits => fits) fun r => ?_
  cases r.groupTime with
  | none =>
    exact .bind (Q := fun _ r => r.Fits d)
      (.modify fun _ fits => ⟨fits.dimension, fits.closed, fits.group, fits.deathFeatures⟩)
      fun _ => .pure fun _ fits => ⟨nofun, fits⟩
  | some groupTime =>
    dsimp only
    split_ifs
    · exact .throw _
    · refine .bind absorbGroup_fits fun c => .bind (Q := fun _ r => c.Fits d ∧ r.Fits d)
        (.modify fun r ⟨made, fits⟩ =>
          ⟨made, fits.dimension, fits.closed, fits.group, fits.deathFeatures⟩)
        fun _ => .pure fun r ⟨made, fits⟩ => ⟨?_, fits⟩
      rintro _ ⟨⟩
      exact made
    · exact .pure fun _ fits => ⟨nofun, fits⟩

theorem enter_fits (features : Vec α) (event : Bool) (score weight : α) :
    Update.Ensures (Fits d) (enter features event score weight) fun _ r => r.Fits d := by
  refine .bind (Q := fun _ r => r.Fits d) (.modify fun r fits => ?_) fun _ =>
    .bind (Q := fun r' r => r = r' ∧ r.Fits d) (.get fun r fits => ⟨rfl, fits⟩) fun r' =>
    .bind (Q := fun first r => first.length = d ∧ r.Fits d) (.ofExcept ?_) fun first =>
    .bind (Q := fun _ r => r.Fits d) (.modify ?_) fun _ =>
    .bind (Q := fun r' r => r = r' ∧ r.Fits d) (.get fun r fits => ⟨rfl, fits⟩) fun r' =>
    .bind (Q := fun second r => second.Square d ∧ r.Fits d) (.ofExcept ?_) fun second =>
    .bind (Q := fun _ r => r.Fits d) (.modify ?_) fun _ => ?_
  · exact ⟨fits.dimension, fits.closed, ⟨fits.group.first, fits.group.second⟩, fits.deathFeatures⟩
  · rintro r first ⟨rfl, fits⟩ sum
    exact ⟨(Vec.length_addTo sum).trans fits.group.first, fits⟩
  · rintro r ⟨size, fits⟩
    exact ⟨fits.dimension, fits.closed, ⟨size, fits.group.second⟩, fits.deathFeatures⟩
  · rintro r second ⟨rfl, fits⟩ sum
    exact ⟨Mat.square_addTo fits.group.second sum, fits⟩
  · rintro r ⟨square, fits⟩
    exact ⟨fits.dimension, fits.closed, ⟨fits.group.first, square⟩, fits.deathFeatures⟩
  · split_ifs
    · refine .bind (Q := fun _ r => r.Fits d) (.modify fun r fits => ?_) fun _ =>
        .bind (Q := fun r' r => r = r' ∧ r.Fits d) (.get fun r fits => ⟨rfl, fits⟩) fun r' =>
        .bind (Q := fun v r => v.length = d ∧ r.Fits d) (.ofExcept ?_) fun v => .modify ?_
      · exact ⟨fits.dimension, fits.closed, fits.group, fits.deathFeatures⟩
      · rintro r v ⟨rfl, fits⟩ sum
        exact ⟨(Vec.length_addTo sum).trans fits.deathFeatures, fits⟩
      · rintro r ⟨size, fits⟩
        exact ⟨fits.dimension, fits.closed, fits.group, size⟩
    · exact .pure fun _ fits => fits

theorem length_of_add (model : Vec α) (e : Example α) :
    Update.Ensures (fun _ => True) (add model e) fun _ _ => model.length = e.dimension := by
  unfold add
  cases e.label with
  | plain value => exact .throw _
  | survival time event =>
    refine .bind (Q := fun _ _ => True) (fun _ _ _ _ _ => trivial) fun closed =>
      .bind (.ofExcept fun _ _ _ scored => Vec.length_dot? scored) fun score => ?_
    exact .fixed _

theorem add_fits (model : Vec α) (e : Example α) :
    Update.Ensures (Fits d) (add model e) fun c r => (∀ c' ∈ c, c'.Fits d) ∧ r.Fits d := by
  unfold add
  cases e.label with
  | plain value => exact .throw _
  | survival time event =>
    refine .bind (advance_fits time) fun closed =>
      .bind (Q := fun _ r => (∀ c' ∈ closed, c'.Fits d) ∧ r.Fits d)
        (.ofExcept fun _ _ fits _ => fits) fun score => ?_
    have last : Update.Ensures (fun r => (∀ c' ∈ closed, c'.Fits d) ∧ r.Fits d)
        (enter e.features event score (Scalar.exp score) >>= fun _ => Pure.pure closed)
        fun c r => (∀ c' ∈ c, c'.Fits d) ∧ r.Fits d :=
      .bind (Q := fun _ r => (∀ c' ∈ closed, c'.Fits d) ∧ r.Fits d)
        (fun _ _ _ fits done => ⟨fits.1, enter_fits _ _ _ _ fits.2 done⟩)
        fun _ => .pure fun _ fits => fits
    dsimp only
    split_ifs
    · exact .bind (Q := fun _ _ => False) (.throw _) fun _ _ _ _ absurd _ => absurd.elim
    · exact last

end RiskSet

namespace Totals

structure Fits (d : Nat) (t : Totals α) : Prop where
  gradient : ∀ g ∈ t.gradient, g.length = d
  hessian : ∀ h ∈ t.hessian, h.Square d
  risk : ∀ r ∈ t.risk, r.Fits d

theorem fits_zero : (zero : Totals α).Fits d := ⟨nofun, nofun, nofun⟩

theorem fits_firstOrder : (firstOrder d : Totals α).Fits d :=
  ⟨by rintro _ ⟨⟩; exact Vec.length_zeros d, nofun, nofun⟩

theorem fits_secondOrder : (secondOrder d : Totals α).Fits d :=
  ⟨fits_firstOrder.gradient, by rintro _ ⟨⟩; exact Mat.square_zeros, nofun⟩

theorem addGradient_fits (v : Vec α) :
    Update.Ensures (Fits d) (addGradient v) fun _ t => t.Fits d := by
  refine .bind (Q := fun t' t => t = t' ∧ t.Fits d) (.get fun t fits => ⟨rfl, fits⟩) fun t' => ?_
  rcases known : t'.gradient with _ | total
  · exact .throw _
  · refine .bind (Q := fun sum t => sum.length = d ∧ t.Fits d) (.ofExcept ?_) fun sum => .modify ?_
    · rintro t sum ⟨rfl, fits⟩ made
      exact ⟨(Vec.length_addTo made).trans (fits.gradient total known), fits⟩
    · rintro t ⟨size, fits⟩
      exact ⟨by rintro _ ⟨⟩; exact size, fits.hessian, fits.risk⟩

theorem addHessian_fits (m : Mat α) :
    Update.Ensures (Fits d) (addHessian m) fun _ t => t.Fits d := by
  refine .bind (Q := fun t' t => t = t' ∧ t.Fits d) (.get fun t fits => ⟨rfl, fits⟩) fun t' => ?_
  rcases known : t'.hessian with _ | total
  · exact .throw _
  · refine .bind (Q := fun sum t => sum.Square d ∧ t.Fits d) (.ofExcept ?_) fun sum => .modify ?_
    · rintro t sum ⟨rfl, fits⟩ made
      exact ⟨Mat.square_addTo (fits.hessian total known) made, fits⟩
    · rintro t ⟨square, fits⟩
      exact ⟨fits.gradient, by rintro _ ⟨⟩; exact square, fits.risk⟩

theorem addLoss_fits (x : α) : Update.Ensures (Fits d) (addLoss x) fun _ t => t.Fits d :=
  .modify fun _ fits => ⟨fits.gradient, fits.hessian, fits.risk⟩

theorem addOwn_fits (o : Objective) (model : Vec α) (e : Example α) :
    Update.Ensures (Fits d) (addOwn o model e)
      fun _ t => t.Fits d ∧ model.length = e.dimension := by
  refine .bind (.ofExcept fun _ _ fits _ => fits) fun g => .bind (addGradient_fits g) fun _ =>
    .bind (Q := fun _ t => t.Fits d ∧ model.length = e.dimension)
      (.ofExcept fun _ _ fits made => ⟨fits, Objective.length_of_loss made⟩) fun loss =>
    .bind (Q := fun _ t => t.Fits d ∧ model.length = e.dimension)
      (fun _ _ _ fits done => ⟨addLoss_fits loss fits.1 done, fits.2⟩) fun _ =>
    .bind (Q := fun _ t => t.Fits d ∧ model.length = e.dimension)
      (.get fun _ fits => fits) fun t => ?_
  split_ifs
  · exact .bind (.ofExcept fun _ _ fits _ => fits) fun h _ _ _ fits done =>
      ⟨addHessian_fits h fits.1 done, fits.2⟩
  · exact .pure fun _ fits => fits

theorem addContribution_fits (c : Contribution α) :
    Update.Ensures (Fits d) (addContribution c) fun _ t => t.Fits d :=
  .bind (addGradient_fits c.gradient) fun _ => .bind (addHessian_fits c.hessian) fun _ =>
    addLoss_fits c.loss

theorem addToRisk_fits (model : Vec α) {e : Example α} (size : e.dimension = d) :
    Update.Ensures (Fits d) (addToRisk model e)
      fun _ t => t.Fits d ∧ model.length = e.dimension := by
  refine .bind (Q := fun _ t => t.Fits d ∧ model.length = e.dimension) ?_ fun closed => ?_
  · intro t closed t' fits done
    rw [Update.run_onPart] at done
    rcases here : (RiskSet.add model e).run (t.risk.getD (.empty model.length)) with ⟨result, risk⟩
    rw [here, Prod.mk.injEq] at done
    obtain ⟨rfl, rfl⟩ := done
    have same := RiskSet.length_of_add model e trivial here
    have before : (t.risk.getD (.empty model.length)).Fits d := by
      rcases known : t.risk with _ | risk
      · exact same.trans size ▸ RiskSet.fits_empty
      · exact fits.risk risk known
    refine ⟨⟨fits.gradient, fits.hessian, ?_⟩, same⟩
    rintro _ ⟨⟩
    exact (RiskSet.add_fits model e before here).2
  · cases closed with
    | none => exact .pure fun _ fits => fits
    | some c => exact fun _ _ _ fits done => ⟨addContribution_fits c fits.1 done, fits.2⟩

theorem addExample_fits (o : Objective) (model : Vec α) {e : Example α} (size : e.dimension = d) :
    Update.Ensures (Fits d) (addExample o model e)
      fun _ t => t.Fits d ∧ model.length = e.dimension := by
  unfold addExample
  split_ifs
  · exact addToRisk_fits model size
  · exact addOwn_fits o model e

end Totals

end Passwise
