import Mathlib.Algebra.BigOperators.Group.List.Basic
import Passwise.Proofs.Reduction
import Passwise.Proofs.Update

set_option autoImplicit false

namespace Passwise

namespace Machine

variable {α σ ρ : Type}

theorem take_none (m : Machine α σ ρ) (e : Example α) :
    (m.take e).exec none = (do
      m.accepts e
      let s ← m.start
      some <$> (m.absorb e).exec s) := by
  unfold take
  cases m.accepts e with
  | error cause => rfl
  | ok _ =>
    simp only [Update.exec_ofExcept_bind, Update.exec_get_bind, Update.exec_set, ok_bind]
    rfl

theorem take_some (m : Machine α σ ρ) (e : Example α) (s : σ) :
    (m.take e).exec (some s) = (do
      m.accepts e
      some <$> (m.absorb e).exec s) := by
  unfold take
  cases m.accepts e with
  | error cause => rfl
  | ok _ =>
    simp only [Update.exec_ofExcept_bind, Update.exec_get_bind, Update.exec_onPart, ok_bind]

theorem run_take_refused {m : Machine α σ ρ} {e : Example α} {cause : Error}
    (refused : m.accepts e = .error cause) (state : Option σ) :
    (m.take e).run state = (.error cause, state) := by
  unfold take
  rw [refused]
  exact Update.run_bind_error (Update.run_ofExcept _ _) _

theorem run_take_some {m : Machine α σ ρ} {e : Example α} (accepted : m.accepts e = .ok ())
    (s : σ) :
    (m.take e).run (some s) = (((m.absorb e).run s).1, some ((m.absorb e).run s).2) := by
  unfold take
  rw [accepted, Update.run_bind_ok (Update.run_ofExcept _ _), Update.run_bind_ok (Update.run_get _)]
  rfl

theorem take_some_eq_ok {m : Machine α σ ρ} {e : Example α} {state : σ} {next : Option σ}
    (taken : (m.take e).exec (some state) = .ok next) :
    m.accepts e = .ok () ∧
      ∃ reached, (m.absorb e).exec state = .ok reached ∧ next = some reached := by
  rw [take_some] at taken
  obtain ⟨_, accepted, taken⟩ := bind_eq_ok.mp taken
  rcases absorbed : (m.absorb e).exec state with _ | reached
  · rw [absorbed] at taken
    cases taken
  · rw [absorbed] at taken
    cases taken
    exact ⟨accepted, reached, rfl, rfl⟩

theorem take_none_eq_ok {m : Machine α σ ρ} {e : Example α} {next : Option σ}
    (taken : (m.take e).exec none = .ok next) :
    ∃ state, m.start = .ok state ∧ (m.take e).exec (some state) = .ok next := by
  rw [take_none] at taken
  obtain ⟨_, accepted, taken⟩ := bind_eq_ok.mp taken
  obtain ⟨state, started, taken⟩ := bind_eq_ok.mp taken
  refine ⟨state, started, ?_⟩
  rw [take_some, accepted]
  exact taken

theorem take_start {m : Machine α σ ρ} {start : σ} (started : m.start = .ok start)
    (e : Example α) : (m.take e).exec (some start) = (m.take e).exec none := by
  rw [take_some, take_none, started]
  rfl

theorem fold_cons (m : Machine α σ ρ) (e : Example α) (xs : List (Example α)) (state : Option σ) :
    m.fold (e :: xs) state = (m.take e).exec state >>= m.fold xs := rfl

theorem fold_start {m : Machine α σ ρ} {start : σ} (started : m.start = .ok start)
    {xs : List (Example α)} (nonempty : xs ≠ []) : m.fold xs (some start) = m.fold xs none := by
  cases xs with
  | nil => contradiction
  | cons e xs => rw [fold_cons, fold_cons, take_start started]

variable {A : Type} [AddCommMonoid A]

structure Summing (m : Machine α σ ρ) (good : Example α → Prop) (share : Example α → A)
    (state : A → σ) : Prop where
  first : ∀ e, good e → (m.take e).exec none = .ok (some (state (share e)))
  next : ∀ a e, good e → (m.take e).exec (some (state a)) = .ok (some (state (a + share e)))
  join : ∀ a b, m.join (state a) (state b) = .ok (state (a + b))

def Refusing (m : Machine α σ ρ) (good : Example α → Prop) (cause : Error) : Prop :=
  ∀ e, good e → (m.take e).exec none = .error cause

variable {m : Machine α σ ρ} {good : Example α → Prop} {share : Example α → A} {state : A → σ}

def reached (share : Example α → A) (state : A → σ) (xs : List (Example α)) : Option σ :=
  if xs = [] then none else some (state (xs.map share).sum)

theorem reached_perm {xs ys : List (Example α)} (same : xs.Perm ys) :
    reached share state xs = reached share state ys := by
  have empty : xs = [] ↔ ys = [] :=
    ⟨fun h => (h ▸ same).nil_eq.symm, fun h => (h ▸ same).eq_nil⟩
  simp only [reached, empty, (same.map share).sum_eq]

theorem combine_map {g : List (Example α) → Option σ} (empty : g [] = none)
    (merges : ∀ xs ys, m.merge (g xs) (g ys) = .ok (g (xs ++ ys))) (shape : Shape)
    (parts : List (List (Example α))) : m.combine shape (parts.map g) = .ok (g parts.flatten) := by
  have respects : Shape.Respects (fun xs s => s = g xs) Shape.append m.merge := by
    rintro xs ys _ _ rfl rfl
    exact ⟨_, _, rfl, merges xs ys, rfl⟩
  have related : List.Forall₂ (fun xs s => s = g xs) parts (parts.map g) := by
    rw [List.forall₂_map_right_iff]
    exact List.forall₂_same.mpr fun _ _ => rfl
  obtain ⟨value, joined, flat, done, last⟩ := Shape.reduce_related respects shape related
  rw [Shape.reduce_append] at flat
  simp only [combine, done]
  by_cases noParts : parts = []
  · rw [if_pos noParts] at flat
    cases flat
    cases last
    rw [noParts, List.flatten_nil, empty]
    rfl
  · rw [if_neg noParts] at flat
    cases flat
    cases last with
    | some same => exact same ▸ rfl

namespace Summing

theorem fold_some (sums : m.Summing good share state) {xs : List (Example α)}
    (all : ∀ e ∈ xs, good e) (a : A) :
    m.fold xs (some (state a)) = .ok (some (state (a + (xs.map share).sum))) := by
  induction xs generalizing a with
  | nil => simp
  | cons e xs ih =>
    have later := ih (fun x member => all x (by simp [member])) (a + share e)
    rw [List.map_cons, List.sum_cons, ← add_assoc, ← later, fold_cons,
      sums.next a e (all e (by simp)), ok_bind]

theorem fold_none (sums : m.Summing good share state) {xs : List (Example α)}
    (all : ∀ e ∈ xs, good e) : m.fold xs none = .ok (reached share state xs) := by
  cases xs with
  | nil => rfl
  | cons e xs =>
    have later := sums.fold_some (fun x (member : x ∈ xs) => all x (by simp [member])) (share e)
    rw [reached, if_neg (by simp), List.map_cons, List.sum_cons, ← later, fold_cons,
      sums.first e (all e (by simp)), ok_bind]

theorem merge_reached (sums : m.Summing good share state) (xs ys : List (Example α)) :
    m.merge (reached share state xs) (reached share state ys) =
      .ok (reached share state (xs ++ ys)) := by
  by_cases left : xs = []
  · simp [reached, left]
  · by_cases right : ys = []
    · simp [reached, left, right]
    · simp only [reached, left, right, if_false, List.append_eq_nil_iff, false_and, merge,
        sums.join, List.map_append, List.sum_append]
      rfl

theorem combine_eq (sums : m.Summing good share state) (shape : Shape)
    {parts : List (List (Example α))} (all : ∀ e ∈ parts.flatten, good e) :
    (parts.mapM (m.fold · none) >>= m.combine shape) =
      .ok (reached share state parts.flatten) := by
  have folded : parts.mapM (m.fold · none) = .ok (parts.map (reached share state)) :=
    mapM_ok fun part member =>
      sums.fold_none fun e inside => all e (List.mem_flatten.mpr ⟨part, member, inside⟩)
  rw [folded, ok_bind]
  exact combine_map rfl sums.merge_reached shape parts

theorem run_eq (sums : m.Summing good share state) (shape : Shape)
    {parts : List (List (Example α))} (all : ∀ e ∈ parts.flatten, good e) :
    m.run shape parts = m.conclude (reached share state parts.flatten) := by
  have gathered : m.run shape parts =
      (parts.mapM (m.fold · none) >>= m.combine shape) >>= m.conclude := (bind_assoc _ _ _).symm
  rw [gathered, sums.combine_eq shape all, ok_bind]

theorem conclude_of_run (sums : m.Summing good share state) {shape : Shape}
    {parts : List (List (Example α))} {xs : List (Example α)} (all : ∀ e ∈ xs, good e)
    (split : parts.flatten.Perm xs) {found : ρ} (done : m.run shape parts = .ok (some found)) :
    m.conclude (some (state (xs.map share).sum)) = .ok (some found) := by
  rw [sums.run_eq shape fun e member => all e (split.mem_iff.mp member), reached_perm split,
    reached] at done
  split_ifs at done
  · cases done
  · exact done

end Summing

namespace Refusing

variable {cause : Error}

theorem fold_none (refuses : m.Refusing good cause) {xs : List (Example α)}
    (all : ∀ e ∈ xs, good e) : m.fold xs none = if xs = [] then .ok none else .error cause := by
  cases xs with
  | nil => rfl
  | cons e xs =>
    rw [fold_cons, refuses e (all e (by simp)), if_neg (by simp), error_bind]

theorem mapM_fold (refuses : m.Refusing good cause) {parts : List (List (Example α))}
    (all : ∀ e ∈ parts.flatten, good e) :
    parts.mapM (m.fold · none) =
      if parts.flatten = [] then .ok (parts.map fun _ => none) else .error cause := by
  induction parts with
  | nil => rfl
  | cons part parts ih =>
    have later := ih fun e member => all e (by simp_all)
    rw [List.mapM_cons, refuses.fold_none fun e member => all e (by simp [member]), later]
    by_cases first : part = []
    · by_cases others : parts.flatten = [] <;> simp [first, others]
    · simp [first]

theorem run_eq (refuses : m.Refusing good cause) (shape : Shape)
    {parts : List (List (Example α))} (all : ∀ e ∈ parts.flatten, good e) :
    m.run shape parts = if parts.flatten = [] then .ok none else .error cause := by
  simp only [run, refuses.mapM_fold all]
  split_ifs with empty
  · change m.combine shape (parts.map fun _ => none) >>= m.conclude = _
    rw [combine_map rfl fun _ _ => rfl]
    rfl
  · rfl

end Refusing

inductive Uniform (m : Machine α σ ρ) (good : Example α → Prop) : Prop
  | sums {A : Type} [AddCommMonoid A] {share : Example α → A} {state : A → σ}
      (sums : m.Summing good share state)
  | refuses {cause : Error} (refuses : m.Refusing good cause)

theorem Uniform.run_eq_run (uniform : m.Uniform good) {parts parts' : List (List (Example α))}
    (all : ∀ e ∈ parts.flatten, good e) (same : parts.flatten.Perm parts'.flatten)
    (shape shape' : Shape) : m.run shape parts = m.run shape' parts' := by
  have all' : ∀ e ∈ parts'.flatten, good e := fun e member => all e (same.mem_iff.mpr member)
  cases uniform with
  | sums sums => rw [sums.run_eq shape all, sums.run_eq shape' all', reached_perm same]
  | refuses refuses =>
    have empty : parts.flatten = [] ↔ parts'.flatten = [] :=
      ⟨fun h => (h ▸ same).nil_eq.symm, fun h => (h ▸ same).eq_nil⟩
    rw [refuses.run_eq shape all, refuses.run_eq shape' all']
    simp only [empty]

theorem run_singleton (m : Machine α σ ρ) (shape : Shape) (part : List (Example α)) :
    m.run shape [part] = m.fold part none >>= m.conclude := by
  rw [run, List.mapM_cons]
  cases m.fold part none with
  | error => rfl
  | ok last =>
    change m.combine shape [last] >>= m.conclude = _
    rw [combine, Shape.reduce_single]
    rfl

structure Tracks (m : Machine α σ ρ) (holds : Nat → σ → Prop) : Prop where
  start : ∀ state, m.start = .ok state → holds 0 state
  absorb : ∀ k e state reached, holds k state → m.accepts e = .ok () →
    (m.absorb e).exec state = .ok reached → holds (k + 1) reached

namespace Tracks

variable {holds : Nat → σ → Prop}

theorem fold_some (tracks : m.Tracks holds) {xs : List (Example α)} {k : Nat} {state : σ}
    {last : Option σ} (before : holds k state) (folded : m.fold xs (some state) = .ok last) :
    ∃ reached, last = some reached ∧ holds (k + xs.length) reached := by
  induction xs generalizing k state with
  | nil =>
    cases folded
    exact ⟨state, rfl, before⟩
  | cons e xs ih =>
    rw [fold_cons] at folded
    obtain ⟨next, taken, folded⟩ := bind_eq_ok.mp folded
    obtain ⟨accepted, moved, absorbed, rfl⟩ := take_some_eq_ok taken
    obtain ⟨final, same, after⟩ :=
      ih (tracks.absorb k e state moved before accepted absorbed) folded
    exact ⟨final, same, by rwa [List.length_cons, Nat.add_comm xs.length, ← Nat.add_assoc]⟩

theorem fold_none (tracks : m.Tracks holds) {xs : List (Example α)} (nonempty : xs ≠ [])
    {last : Option σ} (folded : m.fold xs none = .ok last) :
    ∃ reached, last = some reached ∧ holds xs.length reached := by
  cases xs with
  | nil => contradiction
  | cons e xs =>
    rw [fold_cons] at folded
    obtain ⟨next, taken, folded⟩ := bind_eq_ok.mp folded
    obtain ⟨state, started, taken⟩ := take_none_eq_ok taken
    have whole : m.fold (e :: xs) (some state) = .ok last := by
      rw [fold_cons, taken, ok_bind, folded]
    obtain ⟨final, same, after⟩ := tracks.fold_some (tracks.start state started) whole
    exact ⟨final, same, by rwa [Nat.zero_add] at after⟩

theorem run_single (tracks : m.Tracks holds) {shape : Shape} {xs : List (Example α)}
    (nonempty : xs ≠ []) {result : Option ρ} (done : m.run shape [xs] = .ok result) :
    ∃ state, holds xs.length state ∧ m.result state = .ok result := by
  rw [run_singleton] at done
  obtain ⟨last, folded, done⟩ := bind_eq_ok.mp done
  obtain ⟨state, rfl, after⟩ := tracks.fold_none nonempty folded
  exact ⟨state, after, done⟩

end Tracks

end Machine

end Passwise
