import Passwise.Proofs.Bookkeeping

set_option autoImplicit false

namespace Passwise

variable {α : Type} [Scalar α]

namespace Run

variable [DenseSolver α] {run : Run α} {source : Source α} {shuffles : Shuffles}
  {p q middle : Progress α} {steps : List (Step α)} {seed baseline : Option (Snapshot α)}

theorem Trace.lookup_beyond {k : Nat}
    (trace : run.Trace source shuffles k seed baseline p steps q) {i : Int}
    (later : k + steps.length ≤ i) : q.store.kept.lookup i = p.store.kept.lookup i := by
  induction trace with
  | nil => rfl
  | cons finds moves counts records perRow rest ih =>
    simp only [List.length_cons] at later
    rw [ih (by omega), store_eq finds moves records, Store.lookup_keep_of_ne _ (by omega)]

theorem Ends.store_eq {left : Nat} {reason : Reason}
    (ends : run.Ends source shuffles left seed steps middle q reason) : q.store = middle.store := by
  cases ends with
  | maxIterations used same unsettled => rw [same]
  | converged last reached same unsettled stops => rw [same]
  | noData fewer empty unsettled =>
    have shown := (iteration_keeps _).of_run empty
    obtain ⟨kept, -, -⟩ : _ ∧ _ ∧ _ := by simpa using shown
    exact kept

end Run

-- Of the fits that got as far as a key the last one wrote it.
def stamp : List Nat → Nat → Option Nat
  | [], _ => none
  | n :: earlier, k => if 0 < k ∧ k ≤ n then some (earlier.sum + k) else stamp earlier k

theorem stamp_of_alone {counts : List Nat} (alone : counts.countP (0 < ·) ≤ 1) {k n : Nat}
    (known : stamp counts k = some n) : n = k := by
  induction counts with
  | nil => cases known
  | cons count earlier ih =>
    rw [stamp] at known
    rw [List.countP_cons] at alone
    by_cases inside : 0 < k ∧ k ≤ count
    · rw [if_pos inside] at known
      rw [if_pos (decide_eq_true (by omega))] at alone
      have idle : earlier.sum = 0 := by
        have none : earlier.countP (0 < ·) = 0 := by omega
        rw [List.countP_eq_zero] at none
        exact List.sum_eq_zero fun m member => by simpa using none m member
      cases known
      omega
    · rw [if_neg inside] at known
      exact ih (by omega) known

namespace Outcome

def resumed (outcomes : List (Outcome α)) : Option (Snapshot α) := outcomes.head?.bind (·.snapshot)

def counts (outcomes : List (Outcome α)) : List Nat := outcomes.map (·.iterations)

def longest : List (Outcome α) → Option (Outcome α)
  | [] => none
  | o :: earlier =>
    if 0 < o.iterations ∧ ∀ other ∈ longest earlier, other.iterations ≤ o.iterations then some o
    else longest earlier

end Outcome

structure Outcome.Adds (previous : Option (Snapshot α)) (n : Nat) (o : Outcome α)
    (before after : Store α) : Prop where
  written : ∀ k : Nat, 0 < k → k ≤ o.iterations → ∃ s,
    after.find? (.ofInt k) = some (some s) ∧
      s.memory.iteration = Scalar.ofInt ((n + k : Nat) : Int) ∧
      (k = o.iterations → o.snapshot = some s)
  kept : ∀ i : Int, i ≤ 0 ∨ (o.iterations : Int) < i →
    after.find? (.ofInt i) = before.find? (.ofInt i)
  idle : o.iterations = 0 → o.snapshot = previous

structure Outcome.Shelf (outcomes : List (Outcome α)) (store : Store α) : Prop where
  resumes : Scalar.CountsFrom ((resumed outcomes).elim Memory.fresh (·.memory)).iteration
    ((counts outcomes).sum : Nat)
  stamped : ∀ k n : Nat, stamp (counts outcomes) k = some n →
    ∃ s, store.find? (.ofInt k) = some (some s) ∧ s.memory.iteration = Scalar.ofInt n
  unstamped : ∀ k : Nat, stamp (counts outcomes) k = none → store.find? (.ofInt k) = none
  others : ∀ i : Int, i ≤ 0 → store.find? (.ofInt i) = none
  top : (longest outcomes = none ∧ ∀ i, store.find? (.ofInt i) = none) ∨
    ∃ o, longest outcomes = some o ∧ 0 < o.iterations ∧
      store.find? (.ofInt o.iterations) = some o.snapshot ∧
      ∀ i, store.contains (.ofInt i) = true → i ≤ o.iterations

namespace Outcome

variable {outcomes : List (Outcome α)} {o : Outcome α} {store before after : Store α}

theorem longest_cons (o : Outcome α) (earlier : List (Outcome α)) :
    (longest (o :: earlier) = some o ∧ 0 < o.iterations ∧
        ∀ other ∈ longest earlier, other.iterations ≤ o.iterations) ∨
      (longest (o :: earlier) = longest earlier ∧ (o.iterations = 0 ∨
        ∃ other ∈ longest earlier, o.iterations < other.iterations)) := by
  by_cases wins : 0 < o.iterations ∧ ∀ other ∈ longest earlier, other.iterations ≤ o.iterations
  · exact .inl ⟨if_pos wins, wins⟩
  · refine .inr ⟨if_neg wins, ?_⟩
    by_cases idle : o.iterations = 0
    · exact .inl idle
    · have positive : 0 < o.iterations := Nat.pos_of_ne_zero idle
      exact .inr (by simpa [positive] using wins)

theorem Adds.contains_cases {previous : Option (Snapshot α)} {n : Nat}
    (adds : o.Adds previous n before after) {i : Int}
    (there : after.contains (.ofInt i) = true) :
    i ≤ o.iterations ∨ before.contains (.ofInt i) = true := by
  by_cases inside : i ≤ o.iterations
  · exact .inl inside
  · rw [Store.contains, adds.kept i (.inr (not_le.mp inside))] at there
    exact .inr there

theorem Shelf.start [Scalar.Counting α] (durable : Bool) :
    Shelf ([] : List (Outcome α)) (.empty durable) where
  resumes := Scalar.Counting.countsFrom_ofInt 0
  stamped _ _ := nofun
  unstamped _ _ := rfl
  others _ _ := rfl
  top := .inl ⟨rfl, fun _ => rfl⟩

theorem Shelf.latest (shelf : Shelf outcomes store) :
    store.latest = (longest outcomes).bind (·.snapshot) := by
  rcases shelf.top with ⟨none, empty⟩ | ⟨o, best, -, here, top⟩
  · rcases store.latest_cases with ⟨latest, -⟩ | ⟨i, entry, -, there, -⟩
    · rw [latest, none]
      rfl
    · cases (empty i).symm.trans there
  · rcases store.latest_cases with ⟨-, empty⟩ | ⟨i, entry, latest, there, above⟩
    · cases (empty o.iterations).symm.trans here
    · obtain rfl : i = o.iterations := by
        apply le_antisymm
        · exact top i (congrArg Option.isSome there)
        · exact above o.iterations (congrArg Option.isSome here)
      rw [latest, best]
      exact Option.some.inj (there.symm.trans here)

theorem Shelf.resume [Scalar.Counting α] (shelf : Shelf outcomes before)
    (adds : o.Adds (resumed outcomes) (counts outcomes).sum before after) :
    Shelf (o :: outcomes) after := by
  constructor
  case resumes =>
    change Scalar.CountsFrom (o.snapshot.elim Memory.fresh (·.memory)).iteration _
    rw [counts, List.map_cons, List.sum_cons, Nat.add_comm]
    by_cases idle : o.iterations = 0
    · rw [adds.idle idle, idle]
      exact shelf.resumes
    · obtain ⟨s, -, numbered, last⟩ := adds.written o.iterations (by omega) le_rfl
      rw [last rfl, Option.elim_some, numbered]
      exact Scalar.Counting.countsFrom_ofInt _
  case stamped =>
    intro k n known
    rw [counts, List.map_cons, stamp] at known
    by_cases inside : 0 < k ∧ k ≤ o.iterations
    · obtain ⟨s, here, numbered, -⟩ := adds.written k inside.1 inside.2
      rw [if_pos inside, Option.some.injEq] at known
      exact ⟨s, here, known ▸ numbered⟩
    · rw [if_neg inside] at known
      rw [adds.kept k (by omega)]
      exact shelf.stamped k n known
  case unstamped =>
    intro k unknown
    rw [counts, List.map_cons, stamp] at unknown
    split_ifs at unknown
    rw [adds.kept k (by omega)]
    exact shelf.unstamped k unknown
  case others =>
    intro i nonpositive
    rw [adds.kept i (.inl nonpositive), shelf.others i nonpositive]
  case top =>
    rcases longest_cons o outcomes with ⟨best, positive, wins⟩ | ⟨same, shorter⟩
    · obtain ⟨s, here, -, last⟩ := adds.written o.iterations positive le_rfl
      refine .inr ⟨o, best, positive, by rw [here, last rfl], fun i there => ?_⟩
      rcases adds.contains_cases there with inside | earlier
      · exact inside
      rcases shelf.top with ⟨-, empty⟩ | ⟨other, longer, -, -, above⟩
      · rw [Store.contains, empty] at earlier
        cases earlier
      · exact (above i earlier).trans (by exact_mod_cast wins other longer)
    · rw [same]
      rcases shelf.top with ⟨none, empty⟩ | ⟨other, best, positive, here, above⟩
      · have idle : o.iterations = 0 := by simpa [none] using shorter
        refine .inl ⟨none, fun i => ?_⟩
        rw [adds.kept i (by omega), empty]
      · have shorter : o.iterations < other.iterations := by
          rcases shorter with idle | ⟨other', longer, less⟩
          · omega
          · obtain rfl : other = other' := by simpa using best.symm.trans longer
            exact less
        refine .inr ⟨other, best, positive, ?_, fun i there => ?_⟩
        · rw [adds.kept _ (.inr (by exact_mod_cast shorter)), here]
        · rcases adds.contains_cases there with inside | earlier
          · omega
          · exact above i earlier

end Outcome

namespace Run

variable [DenseSolver α]

theorem fit_adds [Scalar.Counting α] {run : Run α} {source : Source α} {shuffles : Shuffles}
    {previous : Option (Snapshot α)} {o : Outcome α} {p q : Progress α}
    (batch : run.method ≠ .incremental) (shuffled : Shuffled source shuffles) {n : Nat}
    (counted : Scalar.CountsFrom (previous.elim Memory.fresh (·.memory)).iteration n)
    (returned : (run.fit source shuffles previous).run p = (.ok o, q)) :
    o.Adds previous n p.store q.store := by
  obtain ⟨steps, middle, trace, iterations, snapshot, ends⟩ := iterate_ok returned
  rw [Nat.add_sub_cancel_left] at iterations
  have stored := ends.store_eq
  constructor
  case written =>
    intro k positive within
    obtain ⟨step, made⟩ : ∃ step, steps[k - 1]? = some step :=
      ⟨_, List.getElem?_eq_getElem (by omega)⟩
    have place : 1 + (k - 1) = k := by omega
    have kept := trace.lookup_eq made
    have numbered := trace.iteration_batch shuffled batch counted made
    rw [place, ← stored] at kept
    rw [Nat.sub_add_cancel positive] at numbered
    refine ⟨step.resumed, kept, numbered, fun last => ?_⟩
    rw [last, iterations, ← List.getLast?_eq_getElem?] at made
    obtain ⟨front, rfl⟩ := List.getLast?_eq_some_iff.mp made
    rw [snapshot, Step.seedAfter_snoc]
  case kept =>
    intro i outside
    change q.store.kept.lookup i = p.store.kept.lookup i
    rw [stored]
    rcases outside with below | above
    · exact trace.lookup_before (by omega)
    · exact trace.lookup_beyond (by omega)
  case idle =>
    intro none
    obtain rfl : steps = [] := List.length_eq_zero_iff.mp (by omega)
    exact snapshot

inductive Chain (source : Source α) : List (Outcome α) → Store α × Directory α → Prop
  | start (durable : Bool) (files : Directory α) : Chain source [] (.empty durable, files)
  | resume {run : Run α} {shuffles : Shuffles} {earlier : List (Outcome α)} {o : Outcome α}
      {p q : Progress α} (chain : Chain source earlier (p.store, p.directory))
      (batch : run.method ≠ .incremental) (shuffled : Shuffled source shuffles)
      (returned : (run.fit source shuffles (Outcome.resumed earlier)).run p = (.ok o, q)) :
      Chain source (o :: earlier) (q.store, q.directory)

theorem Chain.shelf [Scalar.Counting α] {source : Source α} {outcomes : List (Outcome α)}
    {state : Store α × Directory α} (chain : Chain source outcomes state) :
    Outcome.Shelf outcomes state.1 := by
  induction chain with
  | start durable files => exact .start durable
  | resume _ batch shuffled returned ih =>
    exact ih.resume (fit_adds batch shuffled ih.resumes returned)

theorem store_of_chain [Scalar.Counting α] (source : Source α) {outcomes : List (Outcome α)}
    {state : Store α × Directory α} (chain : Chain source outcomes state) :
    Outcome.Shelf outcomes state.1 ∧
      state.1.latest = (Outcome.longest outcomes).bind (·.snapshot) ∧
      ((Outcome.counts outcomes).countP (0 < ·) ≤ 1 → ∀ (k : Nat) (s : Snapshot α),
        state.1.find? (.ofInt k) = some (some s) → s.memory.iteration = Scalar.ofInt k) := by
  have shelf := chain.shelf
  refine ⟨shelf, shelf.latest, fun alone k s here => ?_⟩
  cases known : stamp (Outcome.counts outcomes) k with
  | none => cases (shelf.unstamped k known).symm.trans here
  | some n =>
    obtain ⟨s', here', numbered⟩ := shelf.stamped k n known
    obtain rfl : s' = s := by simpa using here'.symm.trans here
    rw [numbered, stamp_of_alone alone known]

theorem isAdmissible_one : Scalar.isAdmissible (.real 1 : Numeral) = true := by decide +kernel

theorem isAdmissible_zero : Scalar.isAdmissible (.real 0 : Numeral) = true := by decide +kernel

def stepping (iterations : Nat) : Run Numeral where
  task := ⟨1, .ridge, .real 1, .real 0, Nat.one_pos, isAdmissible_one, isAdmissible_zero⟩
  method := .conjugate
  tolerance := some (.real 0)
  maxIterations := iterations
  parts := some 1
  shape := .tree
  beta := .polakRibiere
  lineSearch := .fixed
  stepsizes := []
  sizeBound := 100
  conditionBound := .real 1000

def single : Source Numeral where
  dimension := 1
  survival := false
  examples := [⟨[.real 1], .plain (.real 1)⟩]
  uniform := by simp [Example.dimension, Label.isSurvival]

theorem exists_chain_stepping : ∃ first second before after,
    Chain single [first] before ∧ Chain single [second, first] after ∧
      first.iterations = 2 ∧ second.iterations = 1 ∧
      first.snapshot.map (·.memory.iteration.whole?) = some (some 2) ∧
      second.snapshot.map (·.memory.iteration.whole?) = some (some 3) := by
  have shuffled : Shuffled single fun _ => [0] := fun _ => .refl _
  have computed :
      let first := ((stepping 2).fit single (fun _ => [0]) none).run (.fresh false)
      let second := ((stepping 1).fit single (fun _ => [0])
        (first.1.toOption.bind (·.snapshot))).run first.2
      first.1.toOption.map (fun o => (o.iterations, o.snapshot.map (·.memory.iteration.whole?))) =
          some (2, some (some 2)) ∧
        second.1.toOption.map (fun o => (o.iterations, o.snapshot.map (·.memory.iteration.whole?))) =
          some (1, some (some 3)) := by
    decide +kernel
  rcases ran : ((stepping 2).fit single (fun _ => [0]) none).run (.fresh false)
    with ⟨_ | first, p⟩
  · rw [ran] at computed
    cases computed.1
  rw [ran] at computed
  dsimp only [Except.toOption, Option.bind, Option.map] at computed
  rcases ran' : ((stepping 1).fit single (fun _ => [0]) first.snapshot).run p with ⟨_ | second, q⟩
  · rw [ran'] at computed
    cases computed.2
  rw [ran'] at computed
  have chain : Chain single [first] (p.store, p.directory) :=
    .resume (.start false []) (by decide) shuffled ran
  simp only [Option.some.injEq, Prod.mk.injEq] at computed
  obtain ⟨⟨two, second'⟩, one, third⟩ := computed
  exact ⟨first, second, (p.store, p.directory), (q.store, q.directory), chain,
    .resume chain (by decide) shuffled ran', two, one, second', third⟩

theorem longest_stepping {first second : Outcome Numeral} (two : first.iterations = 2)
    (one : second.iterations = 1) : Outcome.longest [second, first] = some first := by
  simp [Outcome.longest, one, two]

theorem store_of_chain_stepping : ∃ first second state, Chain single [second, first] state ∧
    (∃ s, state.1.find? (.ofInt 1) = some (some s) ∧ s.memory.iteration = Scalar.ofInt 3) ∧
    (∃ s, state.1.find? (.ofInt 2) = some (some s) ∧ s.memory.iteration = Scalar.ofInt 2) ∧
    state.1.find? (.ofInt 3) = none ∧ state.1.latest = first.snapshot := by
  obtain ⟨first, second, -, state, -, chain, two, one, -, -⟩ := exists_chain_stepping
  obtain ⟨shelf, latest, -⟩ := store_of_chain single chain
  have counts : Outcome.counts [second, first] = [1, 2] := by simp [Outcome.counts, one, two]
  refine ⟨first, second, state, chain, ?_, ?_, ?_, ?_⟩
  · exact shelf.stamped 1 3 (by rw [counts]; rfl)
  · exact shelf.stamped 2 2 (by rw [counts]; rfl)
  · exact shelf.unstamped 3 (by rw [counts]; rfl)
  · rw [latest, longest_stepping two one]
    rfl

theorem resumed_fit_overwrites : ∃ first second before after,
    Chain single [first] before ∧ Chain single [second, first] after ∧
    (∃ s, before.1.find? (.ofInt 1) = some (some s) ∧ s.memory.iteration = Scalar.ofInt 1) ∧
    (∀ i s, after.1.find? (.ofInt i) = some (some s) → s.memory.iteration ≠ Scalar.ofInt 1) ∧
    after.1.contains (.ofInt 1) = true ∧ after.1.latest ≠ second.snapshot := by
  obtain ⟨first, second, before, after, chain, chain', two, one, second', third⟩ :=
    exists_chain_stepping
  have shelf := chain'.shelf
  have counts : Outcome.counts [first] = [2] := by simp [Outcome.counts, two]
  have counts' : Outcome.counts [second, first] = [1, 2] := by simp [Outcome.counts, one, two]
  have apart {m n : Int} (different : m ≠ n) : (Scalar.ofInt m : Numeral) ≠ Scalar.ofInt n :=
    fun same => different (Numeral.whole.inj same)
  obtain ⟨s₁, one', numbered₁⟩ := shelf.stamped 1 3 (by rw [counts']; rfl)
  obtain ⟨s₂, two', numbered₂⟩ := shelf.stamped 2 2 (by rw [counts']; rfl)
  refine ⟨first, second, before, after, chain, chain', ?_, ?_, ?_, ?_⟩
  · exact chain.shelf.stamped 1 1 (by rw [counts]; rfl)
  · intro i s here
    by_cases positive : i ≤ 0
    · cases (shelf.others i positive).symm.trans here
    obtain ⟨k, rfl⟩ := Int.eq_ofNat_of_zero_le (not_le.mp positive).le
    obtain rfl | rfl | later : k = 1 ∨ k = 2 ∨ 2 < k := by omega
    · obtain rfl : s₁ = s := by simpa using one'.symm.trans here
      exact numbered₁ ▸ apart (by decide)
    · obtain rfl : s₂ = s := by simpa using two'.symm.trans here
      exact numbered₂ ▸ apart (by decide)
    · have unknown : stamp (Outcome.counts [second, first]) k = none := by
        simp only [counts', stamp]
        rw [if_neg (by omega), if_neg (by omega)]
      cases (shelf.unstamped k unknown).symm.trans here
  · exact congrArg Option.isSome one'
  · intro same
    rw [shelf.latest, longest_stepping two one, Option.bind_some] at same
    rw [same, third] at second'
    cases second'

end Run

end Passwise
