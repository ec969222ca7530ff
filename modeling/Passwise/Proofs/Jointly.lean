import Passwise.Proofs.RowCount

set_option autoImplicit false

namespace Passwise

-- The part that each of so many has in a value, and the whole.
structure Ensemble (n : Nat) (ι β γ : Type) where
  part : ι → Fin n → β
  whole : ι → γ

namespace Ensemble

variable {n : Nat} {ι ι' β β' γ γ' τ : Type} {b : Ensemble n ι β γ} {b' : Ensemble n ι' β' γ'}

def row : Ensemble n (Fin n → β) β (List β) := ⟨id, List.ofFn⟩

def complete : Ensemble n (Fin n → Option β) (Option β) (Option (List β)) :=
  ⟨id, fun v => (List.ofFn v).mapM id⟩

def option (b : Ensemble n ι β γ) : Ensemble n (Option ι) (Option β) (Option γ) :=
  ⟨fun a k => a.map (b.part · k), Option.map b.whole⟩

def list (b : Ensemble n ι β γ) : Ensemble n (List ι) (List β) (List γ) :=
  ⟨fun as k => as.map (b.part · k), List.map b.whole⟩

-- The causes may differ, since nothing says which of several failures comes first.
inductive Together (b : Ensemble n ι β γ) (each : Fin n → Except Error β) : Except Error γ → Prop
  | ok (a : ι) (goes : ∀ k, each k = .ok (b.part a k)) : Together b each (.ok (b.whole a))
  | error {k : Fin n} {own cause : Error} (fails : each k = .error own) :
      Together b each (.error cause)

namespace Together

variable {each : Fin n → Except Error β} {x : Except Error γ}

theorem of_whole {a : ι} {c : γ} (whole : b.whole a = c) (goes : ∀ k, each k = .ok (b.part a k)) :
    b.Together each (.ok c) :=
  whole ▸ .ok a goes

theorem bind {f : Fin n → β → Except Error β'} {g : γ → Except Error γ'}
    (first : b.Together each x)
    (rest : ∀ a, b'.Together (fun k => f k (b.part a k)) (g (b.whole a))) :
    b'.Together (fun k => each k >>= f k) (x >>= g) := by
  cases first with
  | ok a goes =>
    have same : (fun k => each k >>= f k) = fun k => f k (b.part a k) := by
      funext k
      rw [goes, ok_bind]
    rw [same, ok_bind]
    exact rest a
  | error fails => exact .error (by rw [fails, error_bind])

theorem congr {each' : Fin n → Except Error β}
    (same : ∀ k v, each k = .ok v ↔ each' k = .ok v) (together : b.Together each x) :
    b.Together each' x := by
  cases together with
  | ok a goes => exact .ok a fun k => (same k _).mp (goes k)
  | @error k own _ fails =>
    cases other : each' k with
    | error own' => exact .error other
    | ok v =>
      rw [(same k v).mpr other] at fails
      cases fails

theorem fails_iff (together : b.Together each x) :
    (∃ cause, x = .error cause) ↔ ∃ k cause, each k = .error cause := by
  cases together with
  | ok a goes => simp [goes]
  | error fails => exact iff_of_true ⟨_, rfl⟩ ⟨_, _, fails⟩

theorem mapM {xs : List τ} {f : Fin n → τ → Except Error β} {g : τ → Except Error γ}
    (each : ∀ x, b.Together (fun k => f k x) (g x)) :
    b.list.Together (fun k => xs.mapM (f k)) (xs.mapM g) := by
  induction xs with
  | nil => exact .ok [] fun _ => rfl
  | cons x xs ih =>
    simp only [List.mapM_cons]
    exact (each x).bind fun a => ih.bind fun as => .ok (a :: as) fun _ => rfl

theorem foldlM {f : Fin n → β → τ → Except Error β} {g : γ → τ → Except Error γ}
    (step : ∀ a x, b.Together (fun k => f k (b.part a k) x) (g (b.whole a) x)) (xs : List τ)
    (a : ι) : b.Together (fun k => xs.foldlM (f k) (b.part a k)) (xs.foldlM g (b.whole a)) := by
  induction xs generalizing a with
  | nil => exact .ok a fun _ => rfl
  | cons x xs ih =>
    simp only [List.foldlM_cons]
    exact (step a x).bind ih

end Together

theorem together_complete {each : Fin n → Except Error (Option β)}
    {x : Except Error (List (Option β))} (listed : row.Together each x) :
    complete.Together each (x >>= fun entries => .ok (entries.mapM id)) := by
  cases listed with
  | ok v goes => exact .ok v goes
  | error fails => exact .error fails

theorem together_row {xs : Fin n → τ} {f : τ → Except Error β} {each : Fin n → Except Error β}
    (same : ∀ k, f (xs k) = each k) : row.Together each ((List.ofFn xs).mapM f) := by
  cases done : (List.ofFn xs).mapM f with
  | error cause =>
    obtain ⟨x, member, fails⟩ := exists_of_mapM_error done
    obtain ⟨k, rfl⟩ := List.mem_ofFn.mp member
    exact .error ((same k).symm.trans fails)
  | ok ys =>
    choose v goes using fun k => ok_of_mem_mapM done (List.mem_ofFn.mpr ⟨k, rfl⟩)
    have whole : row.whole v = ys := Except.ok.inj ((mapM_ofFn_ok goes).symm.trans done)
    exact .of_whole whole fun k => (same k).symm.trans (goes k)

end Ensemble

namespace Shape

open Ensemble

variable {n : Nat} {ι β γ : Type} {b : Ensemble n ι β γ} {merge : Fin n → β → β → Except Error β}
  {merge' : γ → γ → Except Error γ}

def Partwise (b : Ensemble n ι β γ) (merge : Fin n → β → β → Except Error β)
    (merge' : γ → γ → Except Error γ) : Prop :=
  ∀ a c, b.Together (fun k => merge k (b.part a k) (b.part c k)) (merge' (b.whole a) (b.whole c))

theorem pairUp_together (partwise : Partwise b merge merge') : ∀ as : List ι,
    b.list.Together (fun k => pairUp (merge k) (b.list.part as k)) (pairUp merge' (b.list.whole as))
  | [] => .ok [] fun _ => rfl
  | [a] => .ok [a] fun _ => rfl
  | a :: c :: rest =>
    (partwise a c).bind fun d =>
      (pairUp_together partwise rest).bind fun others => .ok (d :: others) fun _ => rfl

theorem pairwise_together (partwise : Partwise b merge merge') (rounds : Nat) (as : List ι) :
    b.option.Together (fun k => pairwise (merge k) rounds (b.list.part as k))
      (pairwise merge' rounds (b.list.whole as)) := by
  induction rounds generalizing as with
  | zero =>
    cases as with
    | nil => exact .ok none fun _ => rfl
    | cons a _ => exact .ok (some a) fun _ => rfl
  | succ rounds ih =>
    match as with
    | [] => exact .ok none fun _ => rfl
    | [a] => exact .ok (some a) fun _ => rfl
    | a :: c :: rest => exact (pairUp_together partwise (a :: c :: rest)).bind ih

theorem foldlM_together (partwise : Partwise b merge merge') (as : List ι) (first : ι) :
    b.Together (fun k => (b.list.part as k).foldlM (merge k) (b.part first k))
      ((b.list.whole as).foldlM merge' (b.whole first)) := by
  simp only [list, List.foldlM_map]
  exact Together.foldlM (fun a c => partwise a c) as first

theorem reduce_together (partwise : Partwise b merge merge') (shape : Shape) (as : List ι) :
    b.option.Together (fun k => shape.reduce (merge k) (b.list.part as k))
      (shape.reduce merge' (b.list.whole as)) := by
  cases shape with
  | tree =>
    simp only [reduce, list, List.length_map]
    exact pairwise_together partwise as.length as
  | sequential =>
    cases as with
    | nil => exact .ok none fun _ => rfl
    | cons first as =>
      exact (foldlM_together partwise as first).bind fun a => .ok (some a) fun _ => rfl

end Shape

namespace Machine

open Ensemble

variable {α σ ρ : Type} {n : Nat}

-- A machine whose states consist of those of several machines, which it moves all at once.
structure Drives (m : Machine α (List σ) (List ρ)) (each : Fin n → Machine α σ ρ) : Prop where
  accepts : ∀ e, m.accepts e = .ok ()
  start : row.Together (fun k => (each k).start) m.start
  absorb : ∀ e s, row.Together
    (fun k => (each k).accepts e >>= fun _ => ((each k).absorb e).exec (s k))
    ((m.absorb e).exec (List.ofFn s))
  join : ∀ a c, row.Together (fun k => (each k).join (a k) (c k))
    (m.join (List.ofFn a) (List.ofFn c))
  result : ∀ s, complete.Together (fun k => (each k).result (s k)) (m.result (List.ofFn s))

variable {m : Machine α (List σ) (List ρ)} {each : Fin n → Machine α σ ρ}

namespace Drives

theorem take_some (drives : m.Drives each) (e : Example α) (s : Fin n → σ) :
    row.option.Together (fun k => ((each k).take e).exec (some (s k)))
      ((m.take e).exec (some (List.ofFn s))) := by
  have absorbed : row.option.Together
      (fun k => ((each k).accepts e >>= fun _ => ((each k).absorb e).exec (s k)) >>=
        (.ok <| some ·))
      ((m.absorb e).exec (List.ofFn s) >>= (.ok <| some ·)) :=
    (drives.absorb e s).bind fun s' => .ok (some s') fun _ => rfl
  rw [Machine.take_some, drives.accepts, ok_bind]
  refine absorbed.congr fun k v => ?_
  rw [Machine.take_some]
  cases (each k).accepts e <;> rfl

-- A machine asks before it starts, and the one that drives it after: both fail then.
theorem take_none (drives : m.Drives each) (e : Example α) :
    row.option.Together (fun k => ((each k).take e).exec none) ((m.take e).exec none) := by
  have begun : row.option.Together
      (fun k => (each k).start >>= fun s => ((each k).take e).exec (some s))
      (m.start >>= fun s => (m.take e).exec (some s)) :=
    drives.start.bind fun s => drives.take_some e s
  have same : m.start >>= (fun s => (m.take e).exec (some s)) = (m.take e).exec none := by
    simp only [Machine.take_none, Machine.take_some, drives.accepts, ok_bind]
  rw [← same]
  refine begun.congr fun k v => ?_
  simp only [Machine.take_none, Machine.take_some]
  cases (each k).accepts e <;> cases (each k).start <;> simp

theorem fold (drives : m.Drives each) (xs : List (Example α)) (s : Option (Fin n → σ)) :
    row.option.Together (fun k => (each k).fold xs (row.option.part s k))
      (m.fold xs (row.option.whole s)) := by
  refine Together.foldlM (fun s e => ?_) xs s
  cases s with
  | none => exact drives.take_none e
  | some s => exact drives.take_some e s

theorem merge (drives : m.Drives each) :
    Shape.Partwise row.option (fun k => (each k).merge) m.merge := by
  intro a c
  cases a with
  | none => exact .ok c fun _ => rfl
  | some a =>
    cases c with
    | none => exact .ok (some a) fun _ => rfl
    | some c => exact (drives.join a c).bind fun s => .ok (some s) fun _ => rfl

theorem gathered (drives : m.Drives each) (shape : Shape) (parts : List (List (Example α))) :
    row.option.Together (fun k => (each k).gathered shape parts) (m.gathered shape parts) := by
  refine (Together.mapM fun part => drives.fold part none).bind fun states => ?_
  refine (Shape.reduce_together drives.merge shape states).bind fun last => ?_
  cases last with
  | none => exact .ok none fun _ => rfl
  | some s => exact .ok s fun _ => rfl

theorem run (drives : m.Drives each) (positive : 0 < n) (shape : Shape)
    (parts : List (List (Example α))) :
    complete.Together (fun k => (each k).run shape parts) (m.run shape parts) := by
  simp only [run_eq_gathered]
  refine (drives.gathered shape parts).bind fun last => ?_
  cases last with
  | none =>
    have missing : complete.whole (fun _ : Fin n => (none : Option ρ)) = none := by
      obtain ⟨n, rfl⟩ := Nat.exists_eq_succ_of_ne_zero positive.ne'
      change (List.ofFn fun _ => none).mapM id = none
      rw [List.ofFn_succ]
      rfl
    exact .of_whole missing fun _ => rfl
  | some s => exact drives.result s

end Drives

end Machine

theorem Machine.run_of_empty {α σ ρ : Type} (m : Machine α σ ρ) (shape : Shape)
    {parts : List (List (Example α))} (empty : parts.flatten = []) :
    m.run shape parts = .ok none := by
  have folded : parts.mapM (m.fold · none) = .ok (parts.map fun _ => none) :=
    mapM_ok fun part member => by rw [List.flatten_eq_nil_iff.mp empty part member, fold_nil]
  rw [run, folded, ok_bind, combine_map rfl (fun _ _ => rfl), ok_bind]
  rfl

variable {α : Type} [Scalar α]

namespace Trials

open Ensemble

theorem exec_absorb_ofFn (t : Trials α) (e : Example α)
    (s : Fin t.trials.length → PassState α) :
    (t.absorb e).exec (List.ofFn s) = (List.ofFn fun k => (k, s k)).mapM fun pair =>
      (t.trials.get pair.1).machine.accepts e >>= fun _ =>
        ((t.trials.get pair.1).machine.absorb e).exec pair.2 := by
  have placed : (List.ofFn s).zipIdx =
      (List.ofFn fun k => (k, s k)).map fun pair => (pair.2, pair.1.val) := by
    apply List.ext_getElem <;> simp
  rw [absorb, Update.exec_each_zipIdx, placed, List.mapM_map]
  congr 1
  funext ⟨k, state⟩
  simp

theorem drives (t : Trials α) : t.machine.Drives fun k => (t.trials.get k).machine where
  accepts _ := rfl
  start := by
    have listed : row.Together (fun k => (t.trials.get k).machine.start)
        ((List.ofFn t.trials.get).mapM (·.machine.start)) := together_row fun _ => rfl
    rwa [List.ofFn_get] at listed
  absorb e s := by
    change row.Together _ ((t.absorb e).exec (List.ofFn s))
    rw [exec_absorb_ofFn]
    exact together_row fun _ => rfl
  join a c := by
    have zipped : t.trials.zip ((List.ofFn a).zip (List.ofFn c)) =
        List.ofFn fun k => (t.trials.get k, a k, c k) := by
      apply List.ext_getElem <;> simp
    change row.Together _ ((t.trials.zip ((List.ofFn a).zip (List.ofFn c))).mapM _)
    rw [zipped]
    exact together_row fun _ => rfl
  result s := by
    have zipped : t.trials.zip (List.ofFn s) = List.ofFn fun k => (t.trials.get k, s k) := by
      apply List.ext_getElem <;> simp
    change complete.Together _ (t.result (List.ofFn s))
    rw [result, zipped]
    exact together_complete (together_row fun _ => rfl)

variable {t : Trials α} {shape : Shape} {parts : List (List (Example α))}

theorem run_fails_iff (trials : t.trials ≠ []) :
    (∃ cause, t.machine.run shape parts = .error cause) ↔
      ∃ i ∈ t.trials, ∃ cause, i.machine.run shape parts = .error cause := by
  have together := t.drives.run (List.length_pos_iff.mpr trials) shape parts
  rw [together.fails_iff]
  constructor
  · rintro ⟨k, fails⟩
    exact ⟨t.trials.get k, List.get_mem _ _, fails⟩
  · rintro ⟨i, member, fails⟩
    obtain ⟨k, rfl⟩ := List.mem_iff_get.mp member
    exact ⟨k, fails⟩

theorem run_found (trials : t.trials ≠ []) {found : List (Snapshot α)}
    (done : t.machine.run shape parts = .ok (some found)) :
    List.Forall₂ (fun i s => i.machine.run shape parts = .ok (some s)) t.trials found := by
  have together := t.drives.run (List.length_pos_iff.mpr trials) shape parts
  generalize ran : t.machine.run shape parts = result at together done
  cases together with
  | error _ => cases done
  | ok v goes =>
    have entries := forall₂_of_sequence (Except.ok.inj done)
    obtain ⟨length, each⟩ := List.forall₂_iff_get.mp entries
    rw [List.length_ofFn] at length
    refine List.forall₂_iff_get.mpr ⟨length, fun k inside inside' => ?_⟩
    have own := each k (by simpa using inside) inside'
    rw [List.get_ofFn] at own
    exact (goes ⟨k, inside⟩).trans (congrArg Except.ok own)

variable {task : Task α} {stepsizes : List α} {tasks : List (Task α)}
  {previous : Option (Snapshot α)}

theorem make_eq (given : stepsizes ≠ [])
    (own : List.Forall₂ (fun s own => task.withStepsize s = .ok own) stepsizes tasks) :
    make task stepsizes previous =
      tasks.mapM (fun own => Incremental.make (some own) previous) >>= fun trials =>
        .ok ⟨task, stepsizes, trials⟩ := by
  have each := mapM_congr_forall₂ (own.imp fun s own accepted =>
    (by rw [accepted]; rfl : (do Incremental.ofOrigin ⟨← task.withStepsize s, previous⟩) =
      Incremental.make (some own) previous))
  rw [make, if_neg (by simpa using given), each]
  rfl

theorem make_error (given : stepsizes ≠ [])
    (own : List.Forall₂ (fun s own => task.withStepsize s = .ok own) stepsizes tasks)
    {cause : Error} (failed : make task stepsizes previous = .error cause) :
    ∀ own ∈ tasks, Incremental.make (some own) previous = .error cause := by
  have alike (other : Task α) (member : other ∈ tasks) : other.objective = task.objective := by
    obtain ⟨s, -, accepted⟩ := exists_of_forall₂ own member
    exact (Task.withStepsize_ok accepted).2.1
  have one (other : Task α) (member : other ∈ tasks) : Incremental.make (some other) previous =
      if h : other.objective.usesRiskSet = false then .ok ⟨⟨other, previous⟩, h⟩
      else .error (.cannotFit Incremental.name task.objective.name) := by
    rw [← alike other member]
    rfl
  rw [make_eq given own] at failed
  cases made : tasks.mapM fun own => Incremental.make (some own) previous with
  | ok trials =>
    rw [made] at failed
    cases failed
  | error first =>
    rw [made] at failed
    cases failed
    obtain ⟨other, inside, fails⟩ := exists_of_mapM_error made
    intro own member
    rw [one other inside] at fails
    split_ifs at fails with separable
    cases fails
    rw [one own member, dif_neg]
    rwa [alike own member, ← alike other inside]

theorem run_as_alone (given : stepsizes ≠ [])
    (own : List.Forall₂ (fun s own => task.withStepsize s = .ok own) stepsizes tasks)
    (previous : Option (Snapshot α)) (shape : Shape) (parts : List (List (Example α))) :
    (∀ cause, make task stepsizes previous = .error cause →
      ∀ own ∈ tasks, Incremental.make (some own) previous = .error cause) ∧
    ∀ t, make task stepsizes previous = .ok t →
      List.Forall₂ (fun own i => Incremental.make (some own) previous = .ok i) tasks t.trials ∧
      (t.machine.run shape parts = .ok none ↔ parts.flatten = []) ∧
      ((∃ cause, t.machine.run shape parts = .error cause) ↔
        ∃ i ∈ t.trials, ∃ cause, i.machine.run shape parts = .error cause) ∧
      ∀ found, t.machine.run shape parts = .ok (some found) →
        List.Forall₂ (fun i s => i.machine.run shape parts = .ok (some s)) t.trials found := by
  refine ⟨fun cause => make_error given own, fun t made => ?_⟩
  have same := made
  rw [make_eq given own] at same
  obtain ⟨trials, each, same⟩ := bind_eq_ok.mp same
  cases same
  have some : trials ≠ [] := by
    rintro rfl
    obtain rfl := List.forall₂_nil_right_iff.mp (forall₂_of_mapM each)
    exact given (List.forall₂_nil_right_iff.mp own)
  refine ⟨forall₂_of_mapM each, ⟨fun none => ?_, Machine.run_of_empty _ shape⟩,
    run_fails_iff some, fun found => run_found some⟩
  exact List.flatten_eq_nil_iff.mpr (((tallies _ shape parts _ none).1).mp rfl)

end Trials

namespace Gaps

def resting : Task Float :=
  ⟨1, .ridge, 0, 0, Nat.one_pos, Overflow.isAdmissible_zero, Overflow.isAdmissible_zero⟩

def tried? (stepsizes : List Float) : Option (List (Snapshot Float)) :=
  (Trials.make task stepsizes none >>= fun t => t.machine.run .tree parts).toOption.join

theorem run_as_alone_gaps :
    [(1 : Float), 0] ≠ [] ∧
    List.Forall₂ (fun s own => task.withStepsize s = .ok own) [1, 0] [task, resting] ∧
    ∃ t found, Trials.make task [1, 0] none = .ok t ∧
      t.machine.run .tree parts = .ok (some found) ∧ found.length = 2 ∧
      List.Forall₂ (fun i s => i.machine.run .tree parts = .ok (some s)) t.trials found := by
  have given : [(1 : Float), 0] ≠ [] := by simp
  have own : List.Forall₂ (fun s own => task.withStepsize s = .ok own) [1, 0] [task, resting] :=
    .cons task.make_of_task (.cons resting.make_of_task .nil)
  obtain ⟨found, here⟩ : ∃ found, tried? [1, 0] = some found :=
    Option.isSome_iff_exists.mp (by decide +kernel)
  obtain ⟨t, made, ran⟩ := bind_eq_ok.mp (eq_ok_of_join here)
  obtain ⟨each, -, -, alone⟩ := (Trials.run_as_alone given own none .tree parts).2 t made
  have related := alone found ran
  exact ⟨given, own, t, found, made, ran, related.length_eq.symm.trans each.length_eq.symm,
    related⟩

end Gaps

end Passwise
