import Passwise.Proofs.Order
import Passwise.Proofs.Scoring
import Passwise.Search
import Passwise.Trials

set_option autoImplicit false

namespace Passwise

section Members

variable {β : Type} {values rest : List (Option β)} {v : Option β} {i j : Nat} {x y : β}

structure First (values : List (Option β)) (i : Nat) (x : β) : Prop where
  here : values[i]? = some (some x)
  before : ∀ j < i, values[j]? = some none

theorem First.unique (first : First values i x) (other : First values j y) : i = j ∧ x = y := by
  have same : i = j := by
    rcases Nat.lt_trichotomy i j with below | same | above
    · cases first.here.symm.trans (other.before i below)
    · exact same
    · cases other.here.symm.trans (first.before j above)
  subst same
  simpa using first.here.symm.trans other.here

theorem First.of_snoc (first : First (values ++ [v]) i x) :
    First values i x ∨ i = values.length ∧ v = some x ∧ ∀ u ∈ values, u = none := by
  have earlier {j : Nat} (below : j < i) (inside : j < values.length) :
      values[j]? = some none := by
    rw [← List.getElem?_append_left inside]
    exact first.before j below
  rcases Search.getElem?_snoc first.here with here | ⟨rfl, same⟩
  · have inside := (List.getElem?_eq_some_iff.mp here).1
    exact .inl ⟨here, fun j below => earlier below (below.trans inside)⟩
  · refine .inr ⟨rfl, same.symm, fun u member => ?_⟩
    obtain ⟨j, inside, rfl⟩ := List.getElem_of_mem member
    simpa [inside] using earlier inside inside

theorem First.of_absent (absent : ∀ u ∈ values, u = none) (x : β) :
    First (values ++ [some x]) values.length x := by
  refine ⟨by simp, fun j below => ?_⟩
  rw [List.getElem?_append_left below, List.getElem?_eq_getElem below,
    absent _ (List.getElem_mem below)]

theorem First.append (first : First values i x) (rest : List (Option β)) :
    First (values ++ rest) i x := by
  have inside := (List.getElem?_eq_some_iff.mp first.here).1
  refine ⟨by rw [List.getElem?_append_left inside, first.here], fun j below => ?_⟩
  rw [List.getElem?_append_left (below.trans inside), first.before j below]

end Members

def lowest? {α β : Type} [Scalar α] (key : β → α) (values : List (Option β)) : Option (Nat × β) :=
  values.zipIdx.foldl (fun best entry => entry.1.elim best fun x =>
    some (best.elim (entry.2, x) fun least =>
      if key x < key least.2 then (entry.2, x) else least)) none

structure Lowest {α β : Type} [Scalar α] (key : β → α) (values : List (Option β)) (i : Nat)
    (best : β) : Prop where
  here : values[i]? = some (some best)
  lower : ∀ (j : Nat) (x : β), values[j]? = some (some x) → key best ≤ key x
  earliest : ∀ (j : Nat) (x : β), j < i → values[j]? = some (some x) → key best < key x

section Scanning

variable {α β : Type} [Scalar α] {key : β → α} {values : List (Option β)} {i : Nat} {x best : β}

theorem lowest?_snoc (key : β → α) (values : List (Option β)) (v : Option β) :
    lowest? key (values ++ [v]) = v.elim (lowest? key values) fun x =>
      some ((lowest? key values).elim (values.length, x) fun least =>
        if key x < key least.2 then (values.length, x) else least) := by
  rw [lowest?, List.zipIdx_append, List.foldl_append, Nat.zero_add]
  rfl

theorem lowest?_snoc_none (key : β → α) (values : List (Option β)) :
    lowest? key (values ++ [none]) = lowest? key values := lowest?_snoc key values none

theorem lowest?_snoc_of_none (none : lowest? key values = none) (x : β) :
    lowest? key (values ++ [some x]) = some (values.length, x) := by
  rw [lowest?_snoc, none]
  rfl

theorem lowest?_snoc_of_lt {least : Nat × β} (found : lowest? key values = some least)
    (below : key x < key least.2) :
    lowest? key (values ++ [some x]) = some (values.length, x) := by
  rw [lowest?_snoc, found]
  exact congrArg some (if_pos below)

theorem lowest?_snoc_of_not {least : Nat × β} (found : lowest? key values = some least)
    (above : ¬ key x < key least.2) :
    lowest? key (values ++ [some x]) = some least := by
  rw [lowest?_snoc, found]
  exact congrArg some (if_neg above)

theorem lowest?_eq_none_iff : lowest? key values = none ↔ ∀ v ∈ values, v = none := by
  induction values using List.reverseRecOn with
  | nil => simp [lowest?]
  | append_singleton values v ih =>
    rw [lowest?_snoc, List.forall_mem_append, List.forall_mem_singleton, ← ih]
    cases v <;> simp

theorem lowest?_reduceOption (key : β → α) (values : List (Option β)) :
    (lowest? key values).map Prod.snd =
      (lowest? key (values.reduceOption.map some)).map Prod.snd := by
  induction values using List.reverseRecOn with
  | nil => rfl
  | append_singleton values v ih =>
    cases v with
    | none =>
      have same : (values ++ [none]).reduceOption = values.reduceOption := by
        simp [List.reduceOption]
      rw [lowest?_snoc_none, same, ih]
    | some x =>
      have same : (values ++ [some x]).reduceOption.map some =
          values.reduceOption.map some ++ [some x] := by
        simp [List.reduceOption]
      rw [same]
      generalize values.reduceOption.map some = others at ih ⊢
      rw [lowest?_snoc, lowest?_snoc]
      generalize lowest? key values = left at ih ⊢
      generalize lowest? key others = right at ih ⊢
      rcases left with _ | ⟨i, b⟩ <;> rcases right with _ | ⟨j, c⟩
      · rfl
      · cases ih
      · cases ih
      · obtain rfl : b = c := by simpa using ih
        by_cases below : key x < key b <;> simp [below]

theorem lowest?_map (key : β → α) (values : List (Option β)) :
    lowest? id (values.map (Option.map key)) =
      (lowest? key values).map fun least => (least.1, key least.2) := by
  induction values using List.reverseRecOn with
  | nil => rfl
  | append_singleton values v ih =>
    rw [List.map_append, List.map_singleton, lowest?_snoc, lowest?_snoc, ih, List.length_map]
    cases v with
    | none => rfl
    | some x =>
      rcases lowest? key values with _ | ⟨i, b⟩
      · rfl
      · by_cases below : key x < key b <;> simp [below]

end Scanning

section Doubles

variable {β : Type} {key : β → Float} {values : List (Option β)} {v : Option β} {i j : Nat}
  {x best : β}

theorem Lowest.snoc_of_not (before : Lowest key values i best)
    (above : ∀ x ∈ v, key best ≤ key x) : Lowest key (values ++ [v]) i best where
  here := by
    have inside : i < values.length := (List.getElem?_eq_some_iff.mp before.here).1
    rw [List.getElem?_append_left inside, before.here]
  lower j y known := by
    rcases Search.getElem?_snoc known with earlier | ⟨-, same⟩
    · exact before.lower j y earlier
    · exact above y same.symm
  earliest j y below known := by
    rcases Search.getElem?_snoc known with earlier | ⟨rfl, -⟩
    · exact before.earliest j y below earlier
    · have inside : i < values.length := (List.getElem?_eq_some_iff.mp before.here).1
      omega

theorem Lowest.snoc (number : Scalar.isNaN (key x) = false)
    (above : ∀ (j : Nat) (y : β), values[j]? = some (some y) → key x < key y) :
    Lowest key (values ++ [some x]) values.length x where
  here := List.getElem?_concat_length
  lower j y known := by
    rcases Search.getElem?_snoc known with earlier | ⟨-, same⟩
    · exact Double.le_of_lt (above j y earlier)
    · cases same
      exact Double.le_self number
  earliest j y below known := by
    rcases Search.getElem?_snoc known with earlier | ⟨rfl, -⟩
    · exact above j y earlier
    · omega

theorem lowest_of_found (numbers : ∀ x, some x ∈ values → Scalar.isNaN (key x) = false)
    (found : lowest? key values = some (i, best)) : Lowest key values i best := by
  induction values using List.reverseRecOn generalizing i best with
  | nil => cases found
  | append_singleton values v ih =>
    have earlier (x : β) (member : some x ∈ values) : Scalar.isNaN (key x) = false :=
      numbers x (List.mem_append_left _ member)
    cases v with
    | none =>
      rw [lowest?_snoc_none] at found
      exact (ih earlier found).snoc_of_not (by simp)
    | some x =>
      have number : Scalar.isNaN (key x) = false := numbers x (by simp)
      rcases before : lowest? key values with _ | ⟨k, least⟩
      · rw [lowest?_snoc_of_none before] at found
        cases found
        refine .snoc number fun j y known => ?_
        cases lowest?_eq_none_iff.mp before _ (List.mem_of_getElem? known)
      · have lowest := ih earlier before
        have known := earlier least (List.mem_of_getElem? lowest.here)
        by_cases below : key x < key least
        · rw [lowest?_snoc_of_lt before below] at found
          cases found
          refine .snoc number fun j y here => ?_
          exact Double.lt_of_lt_of_le below (lowest.lower j y here)
        · rw [lowest?_snoc_of_not before below] at found
          cases found
          refine lowest.snoc_of_not fun y same => ?_
          cases same
          exact Double.le_of_not_lt number known below

def numbered (key : β → Float) (values : List (Option β)) : List (Option β) :=
  values.map (Option.filter fun x => !Scalar.isNaN (key x))

theorem getElem?_numbered : (numbered key values)[i]? = some (some x) ↔
    values[i]? = some (some x) ∧ Scalar.isNaN (key x) = false := by
  rw [numbered, List.getElem?_map]
  rcases values[i]? with _ | _ | y
  · simp
  · simp
  · simp only [Option.map_some, Option.some.injEq, Option.filter_eq_some_iff, Bool.not_eq_true']

theorem isNaN_of_mem_numbered (member : some x ∈ numbered key values) :
    Scalar.isNaN (key x) = false := by
  obtain ⟨i, here⟩ := List.mem_iff_getElem?.mp member
  exact (getElem?_numbered.mp here).2

-- A first key that is not a number stays. Any other key that is none might as well be missing.
theorem lowest?_cases (key : β → Float) (values : List (Option β)) :
    (∃ i x, First values i x ∧ Scalar.isNaN (key x) = true ∧ lowest? key values = some (i, x)) ∨
      (∀ i x, First values i x → Scalar.isNaN (key x) = false) ∧
        lowest? key values = lowest? key (numbered key values) := by
  induction values using List.reverseRecOn with
  | nil =>
    refine .inr ⟨fun i x first => ?_, rfl⟩
    cases first.here
  | append_singleton values v ih =>
    have parts : numbered key (values ++ [v]) =
        numbered key values ++ [v.filter fun x => !Scalar.isNaN (key x)] := by
      simp [numbered]
    have length : (numbered key values).length = values.length := List.length_map _
    rw [parts]
    rcases ih with ⟨i, x, first, undefined, found⟩ | ⟨firsts, same⟩
    · refine .inl ⟨i, x, first.append [v], undefined, ?_⟩
      cases v with
      | none => rw [lowest?_snoc_none, found]
      | some y => exact lowest?_snoc_of_not found (Double.not_lt_of_isNaN (.inr undefined))
    · cases v with
      | none =>
        refine .inr ⟨fun i x first => ?_, ?_⟩
        · rcases first.of_snoc with first | ⟨-, ⟨⟩, -⟩
          exact firsts i x first
        · rw [Option.filter_none, lowest?_snoc_none, lowest?_snoc_none, same]
      | some y =>
        rcases undefined : Scalar.isNaN (key y) with _ | _
        · refine .inr ⟨fun i x first => ?_, ?_⟩
          · rcases first.of_snoc with first | ⟨-, here, -⟩
            · exact firsts i x first
            · cases here
              exact undefined
          · rw [Option.filter_some, undefined, lowest?_snoc, lowest?_snoc, same, length]
            rfl
        · have kept : (some y).filter (fun x => !Scalar.isNaN (key x)) = none := by
            simp [undefined]
          rw [kept, lowest?_snoc_none]
          rcases before : lowest? key values with _ | least
          · refine .inl ⟨_, y, .of_absent (lowest?_eq_none_iff.mp before) y, undefined, ?_⟩
            exact lowest?_snoc_of_none before y
          · refine .inr ⟨fun i x first => ?_, ?_⟩
            · rcases first.of_snoc with first | ⟨-, -, absent⟩
              · exact firsts i x first
              · rw [lowest?_eq_none_iff.mpr absent] at before
                cases before
            · rw [lowest?_snoc_of_not before (Double.not_lt_of_isNaN (.inl undefined)), ← before,
                same]

end Doubles

end Passwise
