import Passwise.Proofs.Update

set_option autoImplicit false

namespace Passwise

variable {σ τ β γ : Type}

inductive Agree (S : β → γ → Prop) : Except Error β → Except Error γ → Prop
  | ok {b : β} {c : γ} (related : S b c) : Agree S (.ok b) (.ok c)
  | error (cause : Error) : Agree S (.error cause) (.error cause)

theorem Agree.refl (x : Except Error β) : Agree Eq x x := by
  cases x with
  | ok b => exact .ok rfl
  | error cause => exact .error cause

theorem Agree.self (x : Except Error β) : Agree (fun b c => b = c ∧ x = .ok b) x x := by
  cases x with
  | ok b => exact .ok ⟨rfl, rfl⟩
  | error cause => exact .error cause

theorem Agree.eq {x y : Except Error β} (agree : Agree Eq x y) : x = y := by
  cases agree with
  | ok same => rw [same]
  | error cause => rfl

theorem Agree.bind {β' γ' : Type} {S : β → γ → Prop} {T : β' → γ' → Prop} {x : Except Error β}
    {y : Except Error γ} {f : β → Except Error β'} {g : γ → Except Error γ'} (first : Agree S x y)
    (rest : ∀ b c, S b c → Agree T (f b) (g c)) : Agree T (x >>= f) (y >>= g) := by
  cases first with
  | ok related => exact rest _ _ related
  | error cause => exact .error cause

theorem Agree.of_map {g : β → γ} {x y : Except Error β} (same : g <$> x = g <$> y) :
    Agree (fun b c => g b = g c) x y := by
  rcases x with cause | b <;> rcases y with cause' | c
  · cases same
    exact .error cause
  · cases same
  · cases same
  · exact .ok (Except.ok.inj same)

theorem mapM_map_congr {f f' : β → Except Error γ} {g : γ → τ} {xs : List β}
    (same : ∀ x ∈ xs, g <$> f x = g <$> f' x) :
    List.map g <$> xs.mapM f = List.map g <$> xs.mapM f' := by
  induction xs with
  | nil => rfl
  | cons x xs ih =>
    have first := Agree.of_map (same x (by simp))
    have later := Agree.of_map (ih fun y member => same y (by simp [member]))
    rw [List.mapM_cons, List.mapM_cons]
    generalize f x = head, f' x = head' at first
    generalize xs.mapM f = tail, xs.mapM f' = tail' at later
    cases first with
    | error cause => rfl
    | ok heads =>
      cases later with
      | error cause => rfl
      | ok tails => simp [heads, tails]

namespace Update

theorem ofExcept_bind_congr {S : β → γ → Prop} {x : Except Error β} {y : Except Error γ}
    (agree : Agree S x y) {f : β → Update σ τ} {f' : γ → Update σ τ}
    (same : ∀ b c, S b c → f b = f' c) : ofExcept x >>= f = ofExcept y >>= f' := by
  cases agree with
  | ok related => exact same _ _ related
  | error cause => rfl

-- From related states two updates agree, and leave related states also when they stop.
def Related (R : σ → τ → Prop) (S : β → γ → Prop) (x : Update σ β) (y : Update τ γ) : Prop :=
  ∀ ⦃s : σ⦄ ⦃t : τ⦄, R s t → Agree S (x.run s).1 (y.run t).1 ∧ R (x.run s).2 (y.run t).2

namespace Related

variable {R : σ → τ → Prop} {S : β → γ → Prop}

theorem of_agree {x : Except Error β} {y : Except Error γ} (agree : Agree S x y) :
    Related R S (ofExcept x : Update σ β) (ofExcept y : Update τ γ) :=
  fun _ _ related => ⟨agree, related⟩

theorem ofExcept (x : Except Error β) :
    Related R Eq (ofExcept x : Update σ β) (Update.ofExcept x : Update τ β) :=
  of_agree (.refl x)

theorem pure {b : β} {c : γ} (same : S b c) :
    Related R S (Pure.pure b : Update σ β) (Pure.pure c : Update τ γ) :=
  of_agree (.ok same)

theorem throw (cause : Error) :
    Related R S (throw cause : Update σ β) (throw cause : Update τ γ) :=
  of_agree (.error cause)

theorem get : Related R R (get : Update σ σ) (get : Update τ τ) :=
  fun _ _ related => ⟨.ok related, related⟩

theorem modify {f : σ → σ} {g : τ → τ} (keeps : ∀ s t, R s t → R (f s) (g t)) :
    Related R Eq (modify f : Update σ PUnit) (modify g : Update τ PUnit) :=
  fun s t related => ⟨.ok rfl, keeps s t related⟩

theorem bind {β' γ' : Type} {T : β' → γ' → Prop} {x : Update σ β} {y : Update τ γ}
    {f : β → Update σ β'} {g : γ → Update τ γ'} (first : Related R S x y)
    (rest : ∀ b c, S b c → Related R T (f b) (g c)) : Related R T (x >>= f) (y >>= g) := by
  intro s t related
  obtain ⟨agree, left⟩ := first related
  rw [run_bind, run_bind]
  rcases hx : x.run s with ⟨b, s'⟩
  rcases hy : y.run t with ⟨c, t'⟩
  rw [hx, hy] at agree left
  cases agree with
  | ok same => exact rest _ _ same left
  | error cause => exact ⟨.error cause, left⟩

theorem onPart {υ : Type} {get : σ → υ} {get' : τ → υ} {put : υ → σ → σ} {put' : υ → τ → τ}
    (part : Update υ β) (same : ∀ s t, R s t → get s = get' t)
    (keeps : ∀ v s t, R s t → R (put v s) (put' v t)) :
    Related R Eq (Update.onPart get put part) (Update.onPart get' put' part) := by
  intro s t related
  rw [run_onPart, run_onPart, same s t related]
  exact ⟨.refl _, keeps _ s t related⟩

end Related

end Update

end Passwise
