import Passwise.Optimizer
import Passwise.Proofs.Findings
import Passwise.Proofs.Following

set_option autoImplicit false

namespace Passwise

namespace Update.Keeps

variable {σ τ γ β : Type} {part : σ → γ}

theorem onPart {get : σ → τ} {put : τ → σ → σ} (x : Update τ β)
    (same : ∀ v s, part (put v s) = part s) : Keeps part (Update.onPart get put x) :=
  fun s => same _ s

theorem of_exec {x : Update σ β} {s t : σ} (keeps : Keeps part x) (done : x.exec s = .ok t) :
    part t = part s := by
  have same := keeps s
  rw [exec] at done
  rcases here : x.run s with ⟨_ | b, u⟩
  · rw [here] at done
    cases done
  · rw [here] at done same
    cases done
    exact same

end Update.Keeps

namespace Machine

variable {α σ ρ : Type} {m : Machine α σ ρ} {holds : Nat → σ → Prop}

structure Counts (m : Machine α σ ρ) (holds : Nat → σ → Prop) : Prop extends m.Tracks holds where
  join : ∀ j k left right whole, holds j left → holds k right → m.join left right = .ok whole →
    holds (j + k) whole

namespace Counts

theorem tells (counts : m.Counts holds) : m.Tells fun xs => holds xs.length where
  start := counts.start
  absorb xs e state next before accepted absorbed := by
    rw [List.length_append]
    exact counts.absorb xs.length e state next before accepted absorbed
  join xs ys left right whole _ _ before before' joined := by
    rw [List.length_append]
    exact counts.join xs.length ys.length left right whole before before' joined

theorem run_ok (counts : m.Counts holds) {shape : Shape} {parts : List (List (Example α))}
    {result : Option ρ} (done : m.run shape parts = .ok result) :
    (parts.flatten = [] ∧ result = none) ∨
      (parts.flatten ≠ [] ∧ ∃ state, holds parts.flatten.length state ∧
        m.result state = .ok result) :=
  counts.tells.run_ok done

end Counts

end Machine

variable {α : Type} [Scalar α]

def PassState.account (state : PassState α) : Task α × Memory α × Int :=
  (state.task, state.memory, state.rows)

def PassState.Counted (origin : Origin α) (k : Nat) (state : PassState α) : Prop :=
  state.account = (origin.task, origin.memory, (k : Int))

def Method.iteration (method : Method) (memory : Memory α) : Except Error α :=
  match method with
  | .incremental => .ok memory.iteration
  | .conjugate | .newton => memory.nextIteration

structure Snapshot.Counted (method : Method) (origin : Origin α) (k : Nat) (s : Snapshot α) :
    Prop where
  rows : s.rows = Scalar.ofInt k
  iteration : method.iteration origin.memory = .ok s.memory.iteration

namespace Strategy

structure Counting (s : Strategy α) (method : Method) : Prop where
  step : ∀ e, Update.Keeps PassState.account (s.step e)
  finish : ∀ state found, s.finish state = .ok found →
    found.rows = Scalar.ofInt state.rows ∧
      method.iteration state.memory = .ok found.memory.iteration

namespace Counting

variable {s : Strategy α} {method : Method}

theorem counts (counting : s.Counting method) : s.machine.Counts (PassState.Counted s.origin) where
  start := by
    intro state started
    obtain ⟨first, begun, started⟩ := bind_eq_ok.mp started
    cases started
    obtain ⟨task, memory, rows⟩ := Origin.start_ok begun
    rw [PassState.Counted, PassState.account, task, memory, rows]
    rfl
  absorb := by
    intro k e state reached before _ absorbed
    change (s.absorb e).exec state = .ok reached at absorbed
    rw [Strategy.absorb, Update.exec_bind_unit] at absorbed
    obtain ⟨moved, stepped, absorbed⟩ := bind_eq_ok.mp absorbed
    cases absorbed
    have same : moved.account = (s.origin.task, s.origin.memory, (k : Int)) :=
      ((counting.step e).of_exec stepped).trans before
    simp only [PassState.account, Prod.mk.injEq] at same
    simp [PassState.Counted, PassState.account, same]
  join := by
    intro j k left right whole before before' joined
    change s.join left right = .ok whole at joined
    unfold Strategy.join at joined
    split_ifs at joined
    obtain ⟨parts, -, joined⟩ := bind_eq_ok.mp joined
    cases joined
    simp only [PassState.Counted, PassState.account, Prod.mk.injEq] at before before'
    simp [PassState.Counted, PassState.account, before, before']

theorem result (counting : s.Counting method) {k : Nat} (positive : 0 < k) {state : PassState α}
    (counted : state.Counted s.origin k) {result : Option (Snapshot α)}
    (done : s.machine.result state = .ok result) :
    ∃ found, result = some found ∧ found.Counted method s.origin k := by
  change s.result state = .ok result at done
  simp only [PassState.Counted, PassState.account, Prod.mk.injEq] at counted
  obtain ⟨-, memory, rows⟩ := counted
  have some : state.rows ≠ 0 := by
    rw [rows]
    omega
  rw [Strategy.result, if_neg some] at done
  obtain ⟨found, finished, done⟩ := bind_eq_ok.mp done
  cases done
  obtain ⟨told, numbered⟩ := counting.finish state found finished
  exact ⟨found, rfl, rows ▸ told, memory ▸ numbered⟩

theorem run_counted (counting : s.Counting method) {shape : Shape}
    {parts : List (List (Example α))} {found : Snapshot α}
    (done : s.machine.run shape parts = .ok (some found)) :
    found.Counted method s.origin parts.flatten.length := by
  rcases counting.counts.run_ok done with ⟨-, none⟩ | ⟨taken, state, counted, finished⟩
  · cases none
  · obtain ⟨_, ⟨⟩, whole⟩ := counting.result (List.length_pos_iff.mpr taken) counted finished
    exact whole

end Counting

end Strategy

theorem Incremental.counting (i : Incremental α) : i.strategy.Counting .incremental where
  step e := .bind .get fun _ => .bind (.ofExcept _) fun _ => .bind (.modify fun _ => rfl) fun _ =>
    .bind (.ofExcept _) fun _ => .modify fun _ => rfl
  finish := by
    intro state found finished
    obtain ⟨_, -, finished⟩ := bind_eq_ok.mp finished
    obtain ⟨_, -, finished⟩ := bind_eq_ok.mp finished
    obtain ⟨_, -, finished⟩ := bind_eq_ok.mp finished
    cases finished
    exact ⟨rfl, rfl⟩

theorem Conjugate.counting (c : Conjugate α) : c.strategy.Counting .conjugate where
  step e := .bind .get fun _ => .onPart _ fun _ _ => rfl
  finish := by
    intro state found finished
    obtain ⟨_, -, finished⟩ := bind_eq_ok.mp finished
    obtain ⟨_, -, finished⟩ := bind_eq_ok.mp finished
    obtain ⟨iteration, numbered, finished⟩ := bind_eq_ok.mp finished
    cases finished
    exact ⟨rfl, numbered⟩

theorem Newton.counting [DenseSolver α] (n : Newton α) : n.strategy.Counting .newton where
  step e := .bind .get fun _ => .onPart _ fun _ _ => rfl
  finish := by
    intro state found finished
    obtain ⟨_, -, finished⟩ := bind_eq_ok.mp finished
    obtain ⟨_, -, finished⟩ := bind_eq_ok.mp finished
    obtain ⟨_, -, finished⟩ := bind_eq_ok.mp finished
    obtain ⟨_, -, finished⟩ := bind_eq_ok.mp finished
    dsimp only at finished
    split_ifs at finished
    · cases finished
    obtain ⟨_, -, finished⟩ := bind_eq_ok.mp finished
    obtain ⟨_, -, finished⟩ := bind_eq_ok.mp finished
    obtain ⟨_, -, finished⟩ := bind_eq_ok.mp finished
    obtain ⟨_, -, finished⟩ := bind_eq_ok.mp finished
    obtain ⟨iteration, numbered, finished⟩ := bind_eq_ok.mp finished
    cases finished
    exact ⟨rfl, numbered⟩

theorem Optimizer.counting [DenseSolver α] (o : Optimizer α) :
    ∃ s : Strategy α, s.Counting o.method ∧ s.origin = o.origin ∧ o.machine = s.machine := by
  cases o with
  | incremental i => exact ⟨i.strategy, i.counting, rfl, rfl⟩
  | conjugate c => exact ⟨c.strategy, c.counting, rfl, rfl⟩
  | newton n => exact ⟨n.strategy, n.counting, rfl, rfl⟩

namespace Trials

variable {t : Trials α}

theorem forall₂_of_join {R S T : Incremental α → PassState α → Prop}
    {left right whole : List (PassState α)}
    (before : List.Forall₂ R t.trials left) (after : List.Forall₂ S t.trials right)
    (each : ∀ i a b c, R i a → S i b → i.machine.join a b = .ok c → T i c)
    (joined : t.join left right = .ok whole) : List.Forall₂ T t.trials whole := by
  unfold Trials.join at joined
  generalize t.trials = trials at before after joined ⊢
  induction before generalizing right whole with
  | nil =>
    cases joined
    exact .nil
  | cons first _ ih =>
    obtain _ | ⟨second, others⟩ := after
    rw [List.zip_cons_cons, List.zip_cons_cons, List.mapM_cons] at joined
    obtain ⟨state, merged, joined⟩ := bind_eq_ok.mp joined
    obtain ⟨states, later, joined⟩ := bind_eq_ok.mp joined
    cases joined
    exact .cons (each _ _ _ _ first second merged) (ih others later)

def Counted (t : Trials α) (k : Nat) (states : List (PassState α)) : Prop :=
  List.Forall₂ (fun i state => state.Counted i.origin k) t.trials states

theorem counts (t : Trials α) : t.machine.Counts t.Counted where
  start := by
    intro states started
    exact (forall₂_of_mapM started).imp fun i state begun => i.counting.counts.start state begun
  absorb := by
    intro k e states reached before _ absorbed
    refine Update.forall₂_of_exec_each before ?_ absorbed
    intro j i state moved here counted taken
    rw [here] at taken
    dsimp only at taken
    rw [Update.exec_ofExcept_bind] at taken
    obtain ⟨_, accepted, taken⟩ := bind_eq_ok.mp taken
    exact i.counting.counts.absorb k e state moved counted accepted taken
  join := by
    intro j k left right whole before before' joined
    refine forall₂_of_join before before' ?_ joined
    exact fun i a b c first second => i.counting.counts.join j k a b c first second

theorem result_counted {k : Nat} (positive : 0 < k) {states : List (PassState α)}
    (counted : t.Counted k states) {origin : Origin α}
    (origins : ∀ i ∈ t.trials, i.origin.memory = origin.memory)
    {result : Option (List (Snapshot α))} (done : t.result states = .ok result) :
    ∃ found, result = some found ∧ ∀ s ∈ found, s.Counted .incremental origin k := by
  have each (pair) (member : pair ∈ t.trials.zip states) (entry)
      (finished : pair.1.machine.result pair.2 = .ok entry) :
      ∃ s, entry = some s ∧ s.Counted .incremental origin k := by
    obtain ⟨s, same, rows, iteration⟩ :=
      pair.1.counting.result positive ((List.forall₂_iff_zip.mp counted).2 member) finished
    change Method.incremental.iteration pair.1.origin.memory = _ at iteration
    rw [origins pair.1 (List.of_mem_zip member).1] at iteration
    exact ⟨s, same, rows, iteration⟩
  obtain ⟨found, same, related⟩ := result_ok (fun pair member entry finished =>
    (each pair member entry finished).imp fun _ => And.left) done
  refine ⟨found, same, fun s member => ?_⟩
  obtain ⟨pair, inside, finished⟩ := exists_of_forall₂ related member
  obtain ⟨_, ⟨⟩, counted⟩ := each pair inside _ finished
  exact counted

end Trials

end Passwise
