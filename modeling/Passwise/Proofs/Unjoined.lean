import Mathlib.Data.List.ReduceOption
import Passwise.Proofs.Counting
import Passwise.Proofs.Cox
import Passwise.Proofs.Intake

set_option autoImplicit false

namespace Passwise

namespace Machine

variable {α σ ρ : Type}

def sole (cause : Error) : List σ → Except Error (Option σ)
  | [] => .ok none
  | [state] => .ok (some state)
  | _ :: _ :: _ => .error cause

theorem toList_of_sole {cause : Error} {states : List σ} {state : Option σ}
    (single : sole cause states = .ok state) : state.toList = states := by
  match states with
  | [] =>
    cases single
    rfl
  | [_] =>
    cases single
    rfl
  | _ :: _ :: _ => cases single

theorem two_le_of_sole {cause own : Error} {states : List σ}
    (several : sole cause states = .error own) : own = cause ∧ 2 ≤ states.length := by
  match states with
  | [] => cases several
  | [_] => cases several
  | _ :: _ :: _ =>
    cases several
    exact ⟨rfl, by simp⟩

theorem sole_of_two_le (cause : Error) {states : List σ} (several : 2 ≤ states.length) :
    sole cause states = .error cause := by
  match states, several with
  | _ :: _ :: _, _ => rfl

theorem sole_append (cause : Error) (states rest : List σ) :
    (sole cause states >>= fun state => sole cause (state.toList ++ rest)) =
      sole cause (states ++ rest) := by
  match states with
  | [] => rfl
  | [_] => rfl
  | _ :: _ :: _ => rfl

theorem reduceOption_cons (state : Option σ) (states : List (Option σ)) :
    (state :: states).reduceOption = state.toList ++ states.reduceOption := by
  cases state <;> rfl

theorem reduceOption_mapM_cons (m : Machine α σ ρ) (part : List (Example α))
    (parts : List (List (Example α))) :
    List.reduceOption <$> (part :: parts).mapM (m.fold · none) = (do
      let state ← m.fold part none
      (state.toList ++ ·) <$> List.reduceOption <$> parts.mapM (m.fold · none)) := by
  rw [List.mapM_cons]
  cases m.fold part none with
  | error => rfl
  | ok state =>
    rw [ok_bind, ok_bind]
    cases parts.mapM (m.fold · none) with
    | error => rfl
    | ok states => exact congrArg Except.ok (reduceOption_cons state states)

theorem reduceOption_mapM_filter (m : Machine α σ ρ) (parts : List (List (Example α))) :
    List.reduceOption <$> parts.mapM (m.fold · none) =
      List.reduceOption <$> (parts.filter (!·.isEmpty)).mapM (m.fold · none) := by
  induction parts with
  | nil => rfl
  | cons part parts ih =>
    cases part with
    | nil =>
      rw [List.filter_cons_of_neg (by simp), reduceOption_mapM_cons, fold_nil, ok_bind, ← ih]
      cases parts.mapM (m.fold · none) <;> rfl
    | cons e part =>
      rw [List.filter_cons_of_pos (by simp), reduceOption_mapM_cons, reduceOption_mapM_cons, ih]

structure Apart (m : Machine α σ ρ) (holds : List (Example α) → σ → Prop) (cause : Error) :
    Prop extends m.Tells holds where
  refuses : ∀ xs ys left right, xs ≠ [] → ys ≠ [] → holds xs left → holds ys right →
    m.join left right = .error cause

def Occupied (holds : List (Example α) → σ → Prop) (state : σ) : Prop :=
  ∃ xs, xs ≠ [] ∧ holds xs state

variable {m : Machine α σ ρ} {holds : List (Example α) → σ → Prop} {cause : Error}
  {states : List (Option σ)}

namespace Apart

theorem merge_eq (apart : m.Apart holds cause) {left right : Option σ}
    (taken : ∀ s ∈ left.toList ++ right.toList, Occupied holds s) :
    m.merge left right = sole cause (left.toList ++ right.toList) := by
  rcases left with _ | left
  · cases right <;> rfl
  rcases right with _ | right
  · rfl
  · obtain ⟨xs, some, known⟩ := taken left (by simp)
    obtain ⟨ys, some', known'⟩ := taken right (by simp)
    rw [Machine.merge, apart.refuses xs ys left right some some' known known']
    rfl

theorem foldlM_eq (apart : m.Apart holds cause) {first : Option σ}
    (taken : ∀ s ∈ first.toList ++ states.reduceOption, Occupied holds s) :
    states.foldlM m.merge first = sole cause (first.toList ++ states.reduceOption) := by
  induction states generalizing first with
  | nil => cases first <;> rfl
  | cons next states ih =>
    rw [reduceOption_cons, ← List.append_assoc] at taken ⊢
    rw [List.foldlM_cons, apart.merge_eq fun s member => taken s (List.mem_append_left _ member),
      ← sole_append cause (first.toList ++ next.toList)]
    cases merged : sole cause (first.toList ++ next.toList) with
    | error => rfl
    | ok state =>
      rw [← toList_of_sole merged] at taken
      exact ih taken

theorem pairUp_cases (apart : m.Apart holds cause)
    (taken : ∀ s ∈ states.reduceOption, Occupied holds s) :
    (Shape.pairUp m.merge states = .error cause ∧ 2 ≤ states.reduceOption.length) ∨
      ∃ paired, Shape.pairUp m.merge states = .ok paired ∧
        paired.reduceOption = states.reduceOption ∧ 2 * paired.length ≤ states.length + 1 := by
  induction states using Shape.pairUp.induct with
  | case1 a b rest ih =>
    rw [reduceOption_cons, reduceOption_cons, ← List.append_assoc] at taken ⊢
    have first := apart.merge_eq fun s member => taken s (List.mem_append_left _ member)
    rw [Shape.pairUp, first]
    cases merged : sole cause (a.toList ++ b.toList) with
    | error own =>
      obtain ⟨rfl, several⟩ := two_le_of_sole merged
      exact .inl ⟨rfl, by rw [List.length_append]; omega⟩
    | ok state =>
      rcases ih fun s member => taken s (List.mem_append_right _ member) with
        ⟨failed, several⟩ | ⟨paired, done, same, short⟩
      · rw [failed]
        exact .inl ⟨rfl, by rw [List.length_append]; omega⟩
      · rw [done]
        refine .inr ⟨state :: paired, rfl, ?_, ?_⟩
        · rw [reduceOption_cons, toList_of_sole merged, same]
        · simp only [List.length_cons]
          omega
  | case2 states short =>
    have few := Shape.length_lt_two short
    exact .inr ⟨states, Shape.pairUp_short few, rfl, by omega⟩

theorem pairwise_eq (apart : m.Apart holds cause) {rounds : Nat} (enough : states.length ≤ rounds)
    (taken : ∀ s ∈ states.reduceOption, Occupied holds s) :
    Option.join <$> Shape.pairwise m.merge rounds states = sole cause states.reduceOption := by
  induction rounds generalizing states with
  | zero =>
    obtain rfl := List.length_eq_zero_iff.mp (Nat.le_zero.mp enough)
    rfl
  | succ rounds ih =>
    match states, enough with
    | [], _ => rfl
    | [state], _ => cases state <;> rfl
    | a :: b :: rest, enough =>
      simp only [List.length_cons] at enough
      simp only [Shape.pairwise]
      rcases apart.pairUp_cases taken with ⟨failed, several⟩ | ⟨paired, done, same, short⟩
      · rw [failed, sole_of_two_le cause several]
        rfl
      · simp only [List.length_cons] at short
        rw [done, ok_bind, ← same]
        exact ih (by omega) (same ▸ taken)

theorem combine_eq (apart : m.Apart holds cause) (shape : Shape)
    (taken : ∀ s ∈ states.reduceOption, Occupied holds s) :
    m.combine shape states = sole cause states.reduceOption := by
  cases shape with
  | tree => exact apart.pairwise_eq le_rfl taken
  | sequential => cases states with
    | nil => rfl
    | cons first states =>
      rw [reduceOption_cons] at taken ⊢
      change Option.join <$> some <$> states.foldlM m.merge first = _
      rw [apart.foldlM_eq taken]
      cases sole cause (first.toList ++ states.reduceOption) <;> rfl

theorem run_eq (apart : m.Apart holds cause) (shape : Shape) (parts : List (List (Example α))) :
    m.run shape parts = parts.mapM (m.fold · none) >>= fun states =>
      sole cause states.reduceOption >>= m.conclude := by
  rw [run]
  cases folded : parts.mapM (m.fold · none) with
  | error => rfl
  | ok states =>
    have taken : ∀ s ∈ states.reduceOption, Occupied holds s := by
      intro s member
      obtain ⟨part, -, done⟩ := exists_of_mem_mapM folded (List.reduceOption_mem_iff.mp member)
      exact ⟨part, apart.toTells.fold_none done⟩
    change m.combine shape states >>= m.conclude = _
    rw [apart.combine_eq shape taken]
    rfl

theorem run_filter (apart : m.Apart holds cause) (shape shape' : Shape)
    (parts : List (List (Example α))) :
    m.run shape parts = m.run shape' (parts.filter (!·.isEmpty)) := by
  have same := congrArg (· >>= fun states => sole cause states >>= m.conclude)
    (m.reduceOption_mapM_filter parts)
  simp only [bind_map_left] at same
  rw [apart.run_eq, apart.run_eq, same]

theorem run_error (apart : m.Apart holds cause) (shape : Shape) {parts : List (List (Example α))}
    (several : 2 ≤ (parts.filter (!·.isEmpty)).length) :
    ∃ own, m.run shape parts = .error own ∧
      (own = cause ∨ ∃ part ∈ parts, m.fold part none = .error own) := by
  rw [apart.run_filter shape shape, apart.run_eq]
  cases folded : (parts.filter (!·.isEmpty)).mapM (m.fold · none) with
  | error own =>
    obtain ⟨part, member, failed⟩ := exists_of_mapM_error folded
    exact ⟨own, rfl, .inr ⟨part, List.mem_of_mem_filter member, failed⟩⟩
  | ok states =>
    have every : ∀ state ∈ states, state.isSome = true := by
      intro state member
      obtain ⟨part, inside, done⟩ := exists_of_mem_mapM folded member
      cases state with
      | some state => rfl
      | none =>
        have empty : part = [] := apart.toTells.fold_none done
        simp [empty] at inside
    have count : states.reduceOption.length = (parts.filter (!·.isEmpty)).length := by
      rw [List.reduceOption_length_eq_iff.mpr every, (forall₂_of_mapM folded).length_eq]
    refine ⟨cause, ?_, .inl rfl⟩
    rw [ok_bind, sole_of_two_le cause (count ▸ several)]
    rfl

end Apart

end Machine

namespace Newton

variable {α : Type} [Scalar α] [DenseSolver α] {n : Newton α}

structure AtRisk (n : Newton α) (xs : List (Example α)) (state : PassState α) : Prop where
  counted : state.Counted n.origin xs.length
  risk : xs ≠ [] → state.totals.risk.isSome = true

omit [DenseSolver α] in
theorem AtRisk.task {xs : List (Example α)} {state : PassState α} (known : n.AtRisk xs state) :
    state.task = n.origin.task :=
  congrArg Prod.fst known.counted

theorem join_of_risks {left right : PassState α} (sameTask : left.task = right.task)
    (risk : left.totals.risk.isSome = true) (risk' : right.totals.risk.isSome = true) :
    n.strategy.join left right = .error .severalRiskSets := by
  rw [Strategy.join, if_pos (congrArg Task.dimension sameTask)]
  change (joined left right >>= _) = _
  unfold joined
  rw [risk, risk']
  rfl

theorem apart (cox : n.objective = .cox) : n.machine.Apart n.AtRisk .severalRiskSets := by
  have refuses (xs ys : List (Example α)) (left right : PassState α) (some : xs ≠ [])
      (some' : ys ≠ []) (before : n.AtRisk xs left) (before' : n.AtRisk ys right) :
      n.machine.join left right = .error .severalRiskSets :=
    join_of_risks (before.task.trans before'.task.symm) (before.risk some) (before'.risk some')
  have counts := n.counting.counts
  constructor
  case refuses => exact refuses
  constructor
  case start =>
    intro state started
    exact ⟨counts.start state started, by simp⟩
  case absorb =>
    intro xs e state next before accepted absorbed
    have counted := counts.absorb xs.length e state next before.counted accepted absorbed
    have taken : (n.machine.take e).exec (some state) = .ok (some next) := by
      rw [Machine.take_some, accepted, ok_bind, absorbed, map_ok]
    obtain ⟨closed, r, totals, -, risk, same⟩ := exists_added cox taken
    cases same
    refine ⟨by rwa [List.length_append], fun _ => ?_⟩
    change totals.risk.isSome = true
    rw [risk]
    rfl
  case join =>
    intro xs ys left right whole some some' before before' joined
    rw [refuses xs ys left right some some' before before'] at joined
    cases joined

theorem cox_parts_stay_apart (cox : n.objective = .cox) (shape : Shape)
    (parts : List (List (Example α))) :
    (2 ≤ (parts.filter (!·.isEmpty)).length →
      ∃ cause, n.machine.run shape parts = .error cause ∧
        (cause = .severalRiskSets ∨ ∃ part ∈ parts, n.machine.fold part none = .error cause)) ∧
    ∀ part, parts.filter (!·.isEmpty) = [part] →
      ∀ shape', n.machine.run shape parts = n.machine.run shape' [part] := by
  refine ⟨(apart cox).run_error shape, fun part only shape' => ?_⟩
  rw [(apart cox).run_filter shape shape', only]

theorem cox_parts_stay_apart_spread :
    let s : Snapshot ℝ := ⟨.unit .cox, [2], 0, 0, .null, .fresh, none, none, none⟩
    let n : Newton ℝ := ⟨⟨.unit .cox, some s⟩, 1000, rfl, rfl⟩
    let older : List (Example ℝ) := [⟨[1], .survival 3 true⟩, ⟨[4], .survival 2 false⟩]
    let newer : List (Example ℝ) := [⟨[2], .survival 1 true⟩]
    n.objective = .cox ∧
      n.machine.run .tree [[], older, [], newer, []] = .error .severalRiskSets ∧
      n.machine.run .sequential [[], older, []] = n.machine.run .tree [older] := by
  intro s n older newer
  have started := start_resumed (n := n) rfl ⟨rfl, rfl⟩
  let parts := [[], older, [], newer, []]
  have alike : ∀ part ∈ parts, ∀ e ∈ part, e.Alike 1 true := by
    simp [parts, older, newer, Example.Alike, Example.dimension, Label.isSurvival]
  have falling : ∀ part ∈ parts, part.Pairwise fun a b => b.time ≤ a.time := by
    norm_num [parts, older, newer, Example.time, Label.number]
  obtain ⟨several, -⟩ := cox_parts_stay_apart (n := n) rfl .tree parts
  obtain ⟨-, one⟩ := cox_parts_stay_apart (n := n) rfl .sequential [[], older, []]
  refine ⟨rfl, ?_, one older rfl .tree⟩
  obtain ⟨cause, failed, refused | ⟨part, member, stopped⟩⟩ := several le_rfl
  · rw [failed, refused]
  · rw [fold_cox (fun _ => (2 : ℝ)) Real.exp_pos rfl started rfl rfl (alike part member)
      (inTime_of_falling (falling part member))] at stopped
    cases stopped

end Newton

end Passwise
