import Mathlib.Data.List.Forall2
import Mathlib.Data.List.FinRange
import Passwise.Error

set_option autoImplicit false

namespace Passwise

variable {σ τ β γ : Type}

@[simp] theorem pure_ok (b : β) : (pure b : Except Error β) = .ok b := rfl

@[simp] theorem throw_error (cause : Error) : (throw cause : Except Error β) = .error cause := rfl

@[simp] theorem ok_bind (b : β) (f : β → Except Error γ) : Except.ok b >>= f = f b := rfl

@[simp] theorem error_bind (cause : Error) (f : β → Except Error γ) :
    Except.error cause >>= f = .error cause := rfl

@[simp] theorem map_ok (f : β → γ) (b : β) : f <$> (Except.ok b : Except Error β) = .ok (f b) := rfl

@[simp] theorem map_error (f : β → γ) (cause : Error) :
    f <$> (Except.error cause : Except Error β) = .error cause := rfl

theorem bind_eq_ok {x : Except Error β} {f : β → Except Error γ} {c : γ} :
    x >>= f = .ok c ↔ ∃ b, x = .ok b ∧ f b = .ok c := by
  cases x <;> simp

theorem eq_ok_of_toOption {x : Except Error β} {b : β} (known : x.toOption = some b) :
    x = .ok b := by
  cases x with
  | error cause => cases known
  | ok c => exact congrArg Except.ok (Option.some.inj known)

theorem eq_ok_of_join {x : Except Error (Option β)} {b : β} (known : x.toOption.join = some b) :
    x = .ok (some b) :=
  eq_ok_of_toOption (Option.join_eq_some_iff.mp known)

theorem mapM_ok {f : β → Except Error γ} {g : β → γ} {xs : List β}
    (each : ∀ x ∈ xs, f x = .ok (g x)) : xs.mapM f = .ok (xs.map g) := by
  induction xs with
  | nil => rfl
  | cons x xs ih =>
    rw [List.mapM_cons, each x (by simp), ih fun y member => each y (by simp [member])]
    rfl

theorem mapM_ofFn_ok {n : Nat} {f : β → Except Error γ} {xs : Fin n → β} {ys : Fin n → γ}
    (each : ∀ i, f (xs i) = .ok (ys i)) : (List.ofFn xs).mapM f = .ok (List.ofFn ys) := by
  induction n with
  | zero => rfl
  | succ n ih =>
    rw [List.ofFn_succ, List.ofFn_succ, List.mapM_cons, each 0, ih fun i => each i.succ]
    rfl

theorem mapM_range_ok {f : Nat → Except Error γ} {xs : List γ}
    (each : ∀ i : Fin xs.length, f i = .ok (xs.get i)) :
    (List.range xs.length).mapM f = .ok xs := by
  have whole := mapM_ofFn_ok each
  rwa [List.ofFn_get, List.ofFn_eq_map, List.map_coe_finRange_eq_range] at whole

theorem forall₂_of_mapM {f : β → Except Error γ} {xs : List β} {ys : List γ}
    (made : xs.mapM f = .ok ys) : List.Forall₂ (fun x y => f x = .ok y) xs ys := by
  induction xs generalizing ys with
  | nil =>
    cases made
    exact .nil
  | cons x xs ih =>
    rw [List.mapM_cons] at made
    obtain ⟨y, head, rest⟩ := bind_eq_ok.mp made
    obtain ⟨tail, later, whole⟩ := bind_eq_ok.mp rest
    cases whole
    exact .cons head (ih later)

theorem exists_of_forall₂ {R : β → γ → Prop} {xs : List β} {ys : List γ}
    (related : List.Forall₂ R xs ys) {y : γ} (member : y ∈ ys) : ∃ x ∈ xs, R x y := by
  induction related with
  | nil => cases member
  | cons head _ ih =>
    rcases List.mem_cons.mp member with rfl | later
    · exact ⟨_, by simp, head⟩
    · obtain ⟨x, inside, same⟩ := ih later
      exact ⟨x, by simp [inside], same⟩

theorem exists_of_mem_mapM {f : β → Except Error γ} {xs : List β} {ys : List γ}
    (made : xs.mapM f = .ok ys) {y : γ} (member : y ∈ ys) : ∃ x ∈ xs, f x = .ok y :=
  exists_of_forall₂ (forall₂_of_mapM made) member

theorem ok_of_mem_mapM {f : β → Except Error γ} {xs : List β} {ys : List γ}
    (made : xs.mapM f = .ok ys) {x : β} (member : x ∈ xs) : ∃ y, f x = .ok y := by
  obtain ⟨y, -, same⟩ := exists_of_forall₂ (forall₂_of_mapM made).flip member
  exact ⟨y, same⟩

theorem mapM_of_forall₂ {R : τ → γ → Prop} {f : β → Except Error γ} {ts : List τ} {xs : List β}
    (goes : List.Forall₂ (fun t x => ∃ y, f x = .ok y ∧ R t y) ts xs) :
    ∃ ys, xs.mapM f = .ok ys ∧ List.Forall₂ R ts ys := by
  induction goes with
  | nil => exact ⟨[], rfl, .nil⟩
  | cons first _ ih =>
    obtain ⟨y, head, here⟩ := first
    obtain ⟨ys, rest, later⟩ := ih
    exact ⟨y :: ys, by rw [List.mapM_cons, head, rest]; rfl, .cons here later⟩

theorem mapM_id_of_forall₂ {β γ : Type} {R : β → γ → Prop} {xs : List β}
    {entries : List (Option γ)}
    (each : List.Forall₂ (fun x entry => ∃ y, entry = some y ∧ R x y) xs entries) :
    ∃ ys, entries.mapM id = some ys ∧ List.Forall₂ R xs ys := by
  induction each with
  | nil => exact ⟨[], rfl, .nil⟩
  | cons first _ ih =>
    obtain ⟨y, rfl, here⟩ := first
    obtain ⟨ys, whole, others⟩ := ih
    exact ⟨y :: ys, by rw [List.mapM_cons, whole]; rfl, .cons here others⟩

theorem getElem?_forall₂ {R : β → γ → Prop} {xs : List β} {ys : List γ}
    (related : List.Forall₂ R xs ys) {k : Nat} {x : β} (here : xs[k]? = some x) :
    ∃ y, ys[k]? = some y ∧ R x y := by
  induction related generalizing k with
  | nil => simp at here
  | cons head _ ih =>
    cases k with
    | zero =>
      cases here
      exact ⟨_, rfl, head⟩
    | succ k => exact ih here

theorem forall₂_of_getElem? {R : β → γ → Prop} {xs : List β} {ys : List γ}
    (length : ys.length = xs.length)
    (each : ∀ (k : Nat) (x : β), xs[k]? = some x → ∃ y, ys[k]? = some y ∧ R x y) :
    List.Forall₂ R xs ys := by
  refine List.forall₂_iff_get.mpr ⟨length.symm, fun k inside inside' => ?_⟩
  obtain ⟨y, here, related⟩ := each k xs[k] (List.getElem?_eq_getElem inside)
  rw [List.getElem?_eq_getElem inside', Option.some.injEq] at here
  subst here
  exact related

theorem forall₂_zip {R : τ → β → Prop} {S : τ → γ → Prop} {ts : List τ} {xs : List β}
    {ys : List γ} (left : List.Forall₂ R ts xs) (right : List.Forall₂ S ts ys) :
    List.Forall₂ (fun t pair => R t pair.1 ∧ S t pair.2) ts (xs.zip ys) := by
  induction left generalizing ys with
  | nil =>
    cases right
    exact .nil
  | cons first _ ih =>
    obtain _ | ⟨second, others⟩ := right
    exact .cons ⟨first, second⟩ (ih others)

theorem forall₂_zipIdx {R : τ → β → Prop} {ts : List τ} {xs : List β}
    (related : List.Forall₂ R ts xs) :
    List.Forall₂ (fun t pair => R t pair.1 ∧ ts[pair.2]? = some t) ts xs.zipIdx := by
  rw [List.forall₂_iff_get] at related ⊢
  obtain ⟨length, each⟩ := related
  refine ⟨by simp [length], fun i left right => ?_⟩
  simpa using each i left (length ▸ left)

theorem mapM_error {f : β → Except Error γ} {cause : Error} {xs : List β} {x : β}
    (first : xs.head? = some x) (fails : f x = .error cause) : xs.mapM f = .error cause := by
  cases xs with
  | nil => simp at first
  | cons y ys =>
    cases first
    rw [List.mapM_cons, fails]
    rfl

theorem mapM_congr_forall₂ {f : β → Except Error γ} {g : τ → Except Error γ}
    {xs : List β} {ys : List τ} (same : List.Forall₂ (fun x y => f x = g y) xs ys) :
    xs.mapM f = ys.mapM g := by
  induction same with
  | nil => rfl
  | cons here _ ih => rw [List.mapM_cons, List.mapM_cons, here, ih]

theorem exists_of_mapM_error {f : β → Except Error γ} {xs : List β} {cause : Error}
    (failed : xs.mapM f = .error cause) : ∃ x ∈ xs, f x = .error cause := by
  induction xs with
  | nil => cases failed
  | cons x xs ih =>
    rw [List.mapM_cons] at failed
    cases here : f x with
    | error own =>
      rw [here] at failed
      cases failed
      exact ⟨x, by simp, here⟩
    | ok y =>
      cases later : xs.mapM f with
      | error own =>
        rw [here, later] at failed
        cases failed
        obtain ⟨other, inside, fails⟩ := ih later
        exact ⟨other, by simp [inside], fails⟩
      | ok ys =>
        rw [here, later] at failed
        cases failed

theorem forall₂_of_sequence {entries : List (Option β)} {values : List β}
    (whole : entries.mapM id = some values) :
    List.Forall₂ (fun entry value => entry = some value) entries values := by
  induction entries generalizing values with
  | nil =>
    cases whole
    exact .nil
  | cons first rest ih =>
    rw [List.mapM_cons, Option.bind_eq_bind, Option.bind_eq_some_iff] at whole
    obtain ⟨value, here, whole⟩ := whole
    rw [Option.bind_eq_bind, Option.bind_eq_some_iff] at whole
    obtain ⟨others, later, whole⟩ := whole
    cases whole
    exact .cons here (ih later)

namespace Update

@[simp] theorem run_pure (b : β) (s : σ) : (pure b : Update σ β).run s = (.ok b, s) := rfl

theorem run_bind (x : Update σ β) (f : β → Update σ γ) (s : σ) :
    (x >>= f).run s =
      match x.run s with
      | (.ok b, t) => (f b).run t
      | (.error cause, t) => (.error cause, t) := by
  have step : (x >>= f).run s = ExceptT.bindCont f (x.run s).1 (x.run s).2 := rfl
  rw [step]
  rcases x.run s with ⟨_ | b, t⟩ <;> rfl

theorem run_bind_ok {x : Update σ β} {b : β} {s t : σ} (done : x.run s = (.ok b, t))
    (f : β → Update σ γ) : (x >>= f).run s = (f b).run t := by
  rw [run_bind, done]

theorem run_bind_error {x : Update σ β} {cause : Error} {s t : σ}
    (failed : x.run s = (.error cause, t)) (f : β → Update σ γ) :
    (x >>= f).run s = (.error cause, t) := by
  rw [run_bind, failed]

theorem run_bind_eq_ok {x : Update σ β} {f : β → Update σ γ} {c : γ} {s u : σ} :
    (x >>= f).run s = (.ok c, u) ↔ ∃ b t, x.run s = (.ok b, t) ∧ (f b).run t = (.ok c, u) := by
  rw [run_bind]
  rcases x.run s with ⟨_ | b, t⟩
  · exact ⟨nofun, fun ⟨_, _, same, _⟩ => nomatch same⟩
  · constructor
    · exact fun rest => ⟨b, t, rfl, rest⟩
    · rintro ⟨_, _, same, rest⟩
      cases same
      exact rest

@[simp] theorem run_get (s : σ) : (get : Update σ σ).run s = (.ok s, s) := rfl

@[simp] theorem run_modify (f : σ → σ) (s : σ) :
    (modify f : Update σ PUnit).run s = (.ok ⟨⟩, f s) := rfl

@[simp] theorem run_ofExcept (result : Except Error β) (s : σ) :
    (ofExcept result : Update σ β).run s = (result, s) := rfl

@[simp] theorem run_onPart (get : σ → τ) (put : τ → σ → σ) (part : Update τ β) (s : σ) :
    (onPart get put part).run s = ((part.run (get s)).1, put (part.run (get s)).2 s) := rfl

theorem exec_of_run {x : Update σ β} {b : β} {s t : σ} (done : x.run s = (.ok b, t)) :
    x.exec s = .ok t := by
  rw [exec, done]

theorem run_of_exec {x : Update σ PUnit} {s t : σ} (done : x.exec s = .ok t) :
    x.run s = (.ok ⟨⟩, t) := by
  rcases ran : x.run s with ⟨_ | _, reached⟩
  · rw [exec, ran] at done
    cases done
  · rw [exec, ran] at done
    cases done
    rfl

@[simp] theorem exec_pure (b : β) (s : σ) : (pure b : Update σ β).exec s = .ok s := rfl

@[simp] theorem exec_set (s t : σ) : (set t : Update σ PUnit).exec s = .ok t := rfl

@[simp] theorem exec_modify (f : σ → σ) (s : σ) :
    (modify f : Update σ PUnit).exec s = .ok (f s) := rfl

@[simp] theorem exec_get_bind (f : σ → Update σ β) (s : σ) :
    (get >>= f : Update σ β).exec s = (f s).exec s := rfl

@[simp] theorem exec_ofExcept_bind (result : Except Error β) (f : β → Update σ γ) (s : σ) :
    (ofExcept result >>= f).exec s = result >>= fun b => (f b).exec s := by
  cases result <;> rfl

theorem exec_bind_unit (x : Update σ PUnit) (y : PUnit → Update σ β) (s : σ) :
    (x >>= y).exec s = x.exec s >>= (y ⟨⟩).exec := by
  simp only [exec, run_bind]
  rcases x.run s with ⟨_ | _, t⟩ <;> rfl

theorem exec_bind_ok {x : Update σ β} {b : β} {s t : σ} (done : x.run s = (.ok b, t))
    (f : β → Update σ γ) : (x >>= f).exec s = (f b).exec t := by
  rw [exec, run_bind_ok done]
  rfl

theorem exec_bind_error {x : Update σ β} {cause : Error} {s t : σ}
    (failed : x.run s = (.error cause, t)) (f : β → Update σ γ) :
    (x >>= f).exec s = .error cause := by
  rw [exec, run_bind_error failed]

@[simp] theorem exec_onPart (get : σ → τ) (put : τ → σ → σ) (part : Update τ β) (s : σ) :
    (onPart get put part).exec s = (put · s) <$> part.exec (get s) := by
  simp only [exec, run_onPart]
  rcases part.run (get s) with ⟨_ | _, t⟩ <;> rfl

theorem exec_each_zipIdx (update : Nat → Update τ Unit) (parts : List τ) :
    (each update).exec parts = parts.zipIdx.mapM fun part => (update part.2).exec part.1 := by
  have go (i : Nat) (parts : List τ) : exec (ExceptT.mk (each.go update i)) parts =
      (parts.zipIdx i).mapM fun part => (update part.2).exec part.1 := by
    induction parts generalizing i with
    | nil => rfl
    | cons part rest ih =>
      rw [List.zipIdx_cons, List.mapM_cons, ← ih (i + 1)]
      simp only [exec, ExceptT.run, ExceptT.mk, each.go]
      rcases update i part with ⟨_ | _, left⟩
      · rfl
      · rcases each.go update (i + 1) rest with ⟨_ | _, _⟩ <;> rfl
  exact go 0 parts

theorem exec_each (update : Update τ Unit) (parts : List τ) :
    (each fun _ => update).exec parts = parts.mapM update.exec := by
  have whole : (parts.zipIdx.map Prod.fst).mapM update.exec = parts.mapM update.exec := by
    rw [List.zipIdx_map_fst]
  rw [exec_each_zipIdx, ← whole, List.mapM_map]
  rfl

theorem forall₂_of_exec_each {R R' : β → τ → Prop} {update : Nat → Update τ Unit} {xs : List β}
    {parts parts' : List τ} (related : List.Forall₂ R xs parts)
    (keeps : ∀ i x part part', xs[i]? = some x → R x part → (update i).exec part = .ok part' →
      R' x part')
    (done : (each update).exec parts = .ok parts') : List.Forall₂ R' xs parts' := by
  suffices go : ∀ start, (∀ i x part part', xs[i]? = some x → R x part →
      (update (start + i)).exec part = .ok part' → R' x part') →
      exec (ExceptT.mk (each.go update start)) parts = .ok parts' → List.Forall₂ R' xs parts' from
    go 0 (by simpa using keeps) done
  clear keeps done
  induction related generalizing parts' with
  | nil =>
    intro start _ done
    cases done
    exact .nil
  | @cons x part xs parts first _ ih =>
    intro start keeps done
    simp only [exec, ExceptT.run, ExceptT.mk, each.go] at done
    rcases here : update start part with ⟨_ | _, moved⟩
    · rw [here] at done
      cases done
    rw [here] at done
    rcases later : each.go update (start + 1) parts with ⟨_ | _, rest⟩
    · rw [later] at done
      cases done
    rw [later] at done
    cases done
    refine .cons (keeps 0 x part moved rfl first (exec_of_run here)) (ih (start + 1) ?_ ?_)
    · intro i y a b member
      rw [Nat.add_assoc, Nat.add_comm 1]
      exact keeps (i + 1) y a b member
    · exact exec_of_run (x := ExceptT.mk (each.go update (start + 1))) (b := ()) later

structure Closed (P : (β : Type) → Update σ β → Prop) : Prop where
  ofExcept : ∀ {β : Type} (result : Except Error β), P β (ofExcept result)
  bind : ∀ {β γ : Type} {x : Update σ β} {f : β → Update σ γ}, P β x → (∀ b, P γ (f b)) →
    P γ (x >>= f)

namespace Closed

variable {P : (β : Type) → Update σ β → Prop}

theorem pure (closed : Closed P) (b : β) : P β (Pure.pure b) := closed.ofExcept (.ok b)

theorem throw (closed : Closed P) (cause : Error) : P β (throw cause) :=
  closed.ofExcept (.error cause)

end Closed

def Keeps (part : σ → τ) (x : Update σ β) : Prop := ∀ s, part (x.run s).2 = part s

namespace Keeps

variable {part : σ → τ}

theorem ofExcept (result : Except Error β) : Keeps part (ofExcept result : Update σ β) :=
  fun _ => rfl

theorem pure (b : β) : Keeps part (Pure.pure b : Update σ β) := fun _ => rfl

theorem throw (cause : Error) : Keeps part (throw cause : Update σ β) := fun _ => rfl

theorem get : Keeps part (get : Update σ σ) := fun _ => rfl

theorem modify {f : σ → σ} (same : ∀ s, part (f s) = part s) :
    Keeps part (modify f : Update σ PUnit) := same

theorem bind {x : Update σ β} {f : β → Update σ γ} (first : Keeps part x)
    (rest : ∀ b, Keeps part (f b)) : Keeps part (x >>= f) := by
  intro s
  have before := first s
  rw [run_bind]
  rcases done : x.run s with ⟨_ | b, t⟩
  · rwa [done] at before
  · rw [done] at before
    exact (rest b t).trans before

theorem closed (part : σ → τ) : Closed fun (β : Type) (x : Update σ β) => Keeps part x :=
  ⟨ofExcept, bind⟩

theorem of_run {x : Update σ β} {result : Except Error β} {s t : σ} (keeps : Keeps part x)
    (done : x.run s = (result, t)) : part t = part s := by
  rw [← keeps s, done]

end Keeps

def Ensures (P : σ → Prop) (x : Update σ β) (Q : β → σ → Prop) : Prop :=
  ∀ ⦃s : σ⦄ ⦃b : β⦄ ⦃t : σ⦄, P s → x.run s = (.ok b, t) → Q b t

namespace Ensures

variable {P : σ → Prop} {Q : β → σ → Prop} {R : γ → σ → Prop}

theorem pure {b : β} (holds : ∀ s, P s → Q b s) : Ensures P (Pure.pure b) Q := by
  intro s b t given done
  cases done
  exact holds s given

theorem throw (cause : Error) : Ensures P (throw cause) Q := by
  intro s b t given done
  cases done

theorem ofExcept {result : Except Error β} (holds : ∀ s b, P s → result = .ok b → Q b s) :
    Ensures P (Update.ofExcept result) Q := by
  intro s b t given done
  rw [run_ofExcept, Prod.mk.injEq] at done
  obtain ⟨made, rfl⟩ := done
  exact holds s b given made

theorem get {Q : σ → σ → Prop} (holds : ∀ s, P s → Q s s) : Ensures P get Q := by
  intro s b t given done
  cases done
  exact holds s given

theorem modify {f : σ → σ} {Q : PUnit → σ → Prop} (holds : ∀ s, P s → Q ⟨⟩ (f s)) :
    Ensures P (modify f) Q := by
  intro s b t given done
  cases done
  exact holds s given

theorem bind {x : Update σ β} {f : β → Update σ γ} (first : Ensures P x Q)
    (rest : ∀ b, Ensures (Q b) (f b) R) : Ensures P (x >>= f) R := by
  intro s c u given done
  obtain ⟨b, t, here, later⟩ := run_bind_eq_ok.mp done
  exact rest b (first given here) later

theorem fixed {p : Prop} (x : Update σ β) : Ensures (fun _ => p) x fun _ _ => p :=
  fun _ _ _ given _ => given

theorem onPart {P' : τ → Prop} {Q' : β → τ → Prop} {get : σ → τ} {put : τ → σ → σ}
    {part : Update τ β} (inside : Ensures P' part Q') (before : ∀ s, P s → P' (get s))
    (after : ∀ s b v, P s → Q' b v → Q b (put v s)) : Ensures P (Update.onPart get put part) Q := by
  intro s b t given done
  rw [run_onPart] at done
  rcases here : part.run (get s) with ⟨result, v⟩
  rw [here, Prod.mk.injEq] at done
  obtain ⟨rfl, rfl⟩ := done
  exact after s b v given (inside (before s given) here)

theorem exec {x : Update σ β} (ensures : Ensures P x Q) {s t : σ} (given : P s)
    (done : x.exec s = .ok t) : ∃ b, Q b t := by
  rw [Update.exec] at done
  rcases here : x.run s with ⟨_ | b, u⟩
  · rw [here] at done
    cases done
  · rw [here] at done
    cases done
    exact ⟨b, ensures given here⟩

end Ensures

def Maintains (P : σ → Prop) (x : Update σ β) (Q : β → Prop) : Prop :=
  ∀ s, P s → P (x.run s).2 ∧ ∀ b, (x.run s).1 = .ok b → Q b

namespace Maintains

variable {P : σ → Prop} {Q : β → Prop} {R : γ → Prop}

theorem ofExcept {result : Except Error β} (answer : ∀ b, result = .ok b → Q b) :
    Maintains P (Update.ofExcept result) Q := fun _ given => ⟨given, answer⟩

theorem pure {b : β} (answer : Q b) : Maintains P (Pure.pure b) Q := by
  intro s given
  refine ⟨given, ?_⟩
  rintro _ ⟨⟩
  exact answer

theorem get : Maintains P get fun _ => True := fun _ given => ⟨given, fun _ _ => trivial⟩

theorem modify {f : σ → σ} (keeps : ∀ s, P s → P (f s)) :
    Maintains P (modify f : Update σ PUnit) fun _ => True :=
  fun s given => ⟨keeps s given, fun _ _ => trivial⟩

theorem bind {x : Update σ β} {f : β → Update σ γ} (first : Maintains P x Q)
    (rest : ∀ b, Q b → Maintains P (f b) R) : Maintains P (x >>= f) R := by
  intro s given
  obtain ⟨after, answer⟩ := first s given
  rw [run_bind]
  rcases done : x.run s with ⟨cause | b, t⟩
  · rw [done] at after
    exact ⟨after, nofun⟩
  · rw [done] at after answer
    exact rest b (answer b rfl) t after

theorem of_keeps {part : σ → τ} {x : Update σ β} (keeps : Keeps part x)
    (same : ∀ s t, part s = part t → P s → P t)
    (answers : ∀ s b t, x.run s = (.ok b, t) → Q b) : Maintains P x Q :=
  fun s given => ⟨same s _ (keeps s).symm given, fun b done => answers s b _ (Prod.ext done rfl)⟩

end Maintains

end Update

end Passwise
