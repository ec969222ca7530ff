import Passwise.Proofs.Reopening

set_option autoImplicit false

namespace Passwise

namespace Store

variable {α : Type} [Scalar α] {i : Int} {store : Store α} {files : Directory α}
  {puts : List (Int × Snapshot α)}

def putAll (puts : List (Int × Snapshot α)) : Update (Store α × Directory α) Unit :=
  puts.forM fun (i, s) => put (.ofInt i) (some s)

def lastUnder (puts : List (Int × Snapshot α)) (i : Int) : Option (Snapshot α) :=
  puts.reverse.lookup i

theorem lastUnder_cons (p : Int × Snapshot α) (rest : List (Int × Snapshot α)) (i : Int) :
    lastUnder (p :: rest) i = (lastUnder rest i).or (if i = p.1 then some p.2 else none) := by
  obtain ⟨j, s⟩ := p
  rw [lastUnder, List.reverse_cons, List.lookup_append, lastUnder]
  by_cases same : i = j
  · simp [same]
  · have apart : (i == j) = false := by simpa using same
    simp [same, apart, List.lookup_cons]

theorem mem_of_lastUnder {s : Snapshot α} (last : lastUnder puts i = some s) : (i, s) ∈ puts := by
  induction puts with
  | nil => cases last
  | cons p rest ih =>
    rw [lastUnder_cons, Option.or_eq_some_iff] at last
    rcases last with later | ⟨-, here⟩
    · exact List.mem_cons_of_mem _ (ih later)
    · split_ifs at here with same
      cases here
      exact same ▸ List.mem_cons_self

theorem lastUnder_eq_none (never : ∀ p ∈ puts, p.1 ≠ i) : lastUnder puts i = none := by
  rw [Option.eq_none_iff_forall_ne_some]
  exact fun s last => never _ (mem_of_lastUnder last) rfl

theorem putAll_cons (p : Int × Snapshot α) (rest : List (Int × Snapshot α)) :
    putAll (p :: rest) = put (.ofInt p.1) (some p.2) >>= fun _ => putAll rest := rfl

theorem run_put_eq_ok {s : Snapshot α} (durable : store.durable = true)
    {state : Store α × Directory α}
    (done : (put (.ofInt i) (some s)).run (store, files) = (.ok (), state)) :
    ∃ cells, s.toCells = .ok cells ∧
      state = (store.keep i (some s), files.write (Key.fileNameOf i) cells) := by
  rw [run_put (k := i) rfl rfl, if_pos durable] at done
  cases written : s.toCells with
  | error cause =>
    rw [written] at done
    cases done
  | ok cells =>
    rw [written] at done
    cases done
    exact ⟨cells, rfl, rfl⟩

theorem run_putAll_cons_eq_ok (durable : store.durable = true) {p : Int × Snapshot α}
    {state : Store α × Directory α}
    (done : (putAll (p :: puts)).run (store, files) = (.ok (), state)) :
    ∃ cells, p.2.toCells = .ok cells ∧
      (putAll puts).run (store.keep p.1 (some p.2), files.write (Key.fileNameOf p.1) cells) =
        (.ok (), state) := by
  rw [putAll_cons, Update.run_bind] at done
  rcases first : (put (.ofInt p.1) (some p.2)).run (store, files) with ⟨outcome | outcome, next⟩
  · rw [first] at done
    cases done
  · rw [first] at done
    obtain ⟨cells, written, rfl⟩ := run_put_eq_ok durable first
    exact ⟨cells, written, done⟩

theorem read?_putAll (durable : store.durable = true) {state : Store α × Directory α}
    (done : (putAll puts).run (store, files) = (.ok (), state)) (i : Int) :
    state.2.read? (Key.fileNameOf i) =
      (lastUnder puts i).elim (files.read? (Key.fileNameOf i)) (·.toCells.toOption) := by
  induction puts generalizing store files with
  | nil =>
    cases done
    rfl
  | cons p rest ih =>
    obtain ⟨cells, written, done⟩ := run_putAll_cons_eq_ok durable done
    have later := ih ((durable_keep _ _ _).trans durable) done
    rw [later, lastUnder_cons, read?_write]
    cases lastUnder rest i with
    | some s => rfl
    | none =>
      rw [Option.none_or, Option.elim_none]
      split_ifs with same
      -- by `rw`, for `simp` would leave it to the kernel to unfold the layout
      · rw [Option.elim_some, written]
        rfl
      · rfl

theorem exists_run_putAll (durable : store.durable = true)
    (written : ∀ p ∈ puts, ∃ cells, p.2.toCells = .ok cells) :
    ∃ state, (putAll puts).run (store, files) = (.ok (), state) := by
  induction puts generalizing store files with
  | nil => exact ⟨_, rfl⟩
  | cons p rest ih =>
    obtain ⟨⟨cells, layout⟩, written⟩ := List.forall_mem_cons.mp written
    have first : (put (.ofInt p.1) (some p.2)).run (store, files) =
        (.ok (), store.keep p.1 (some p.2), files.write (Key.fileNameOf p.1) cells) := by
      rw [run_put (k := p.1) rfl rfl, if_pos durable, layout]
    rw [putAll_cons, Update.run_bind_ok first]
    exact ih ((durable_keep _ _ _).trans durable) written

theorem run_fetch_of_unreadable {cells : List α} {cause : Error}
    (kept : store.kept.lookup i = none) (durable : store.durable = true)
    (found : files.read? (Key.fileNameOf i) = some cells)
    (unreadable : Snapshot.ofCells cells = .error cause) :
    (fetch (.ofInt i)).run (store, files) = (.error cause, store, files) := by
  have unknown : store.find? (.ofInt i) = none := kept
  have name : (Key.ofInt i).fileName = .ok (Key.fileNameOf i) := rfl
  rw [fetch, Update.run_bind_ok (Update.run_get _)]
  dsimp only
  rw [unknown, durable, if_pos rfl, name]
  dsimp only
  rw [Update.run_bind_ok (Update.run_ofExcept _ _), found, pure_bind]
  dsimp only
  rw [unreadable, Update.run_bind_error (Update.run_ofExcept _ _)]

def held (files : Directory α) (i : Int) : Except Error (Option (Snapshot α)) :=
  match files.read? (Key.fileNameOf i) with
  | none => .error (.notStored (toString i))
  | some cells => some <$> Snapshot.ofCells cells

structure Mirrors (store : Store α) (files : Directory α) : Prop where
  durable : store.durable = true
  kept : ∀ i entry, store.kept.lookup i = some entry → held files i = .ok entry

theorem mirrors_empty (files : Directory α) : Mirrors (.empty true) files := ⟨rfl, nofun⟩

theorem Mirrors.fetch (mirrors : Mirrors store files) (i : Int) :
    ∃ next, (fetch (.ofInt i)).run (store, files) = (held files i, next, files) ∧
      Mirrors next files := by
  cases kept : store.kept.lookup i with
  | some entry =>
    rw [mirrors.kept i entry kept]
    exact ⟨store, run_fetch_of_kept kept files, mirrors⟩
  | none =>
    cases found : files.read? (Key.fileNameOf i) with
    | none =>
      rw [run_fetch_of_missing kept mirrors.durable found, held, found]
      exact ⟨store, rfl, mirrors⟩
    | some cells =>
      cases read : Snapshot.ofCells cells with
      | ok s =>
        have answer : held files i = .ok (some s) := by
          rw [held, found]
          dsimp only
          rw [read, map_ok]
        rw [run_fetch_of_file kept mirrors.durable found read, answer]
        refine ⟨_, rfl, (durable_keep _ _ _).trans mirrors.durable, fun j entry here => ?_⟩
        rw [lookup_keep] at here
        split_ifs at here with same
        · cases here
          rw [same, answer]
        · exact mirrors.kept j entry here
      | error cause =>
        rw [run_fetch_of_unreadable kept mirrors.durable found read, held, found]
        dsimp only
        rw [read]
        exact ⟨store, rfl, mirrors⟩

def afterGets (asked : List Int) (state : Store α × Directory α) : Store α × Directory α :=
  asked.foldl (fun state i => ((fetch (.ofInt i)).run state).2) state

theorem Mirrors.afterGets (mirrors : Mirrors store files) (asked : List Int) :
    ∃ next, Store.afterGets asked (store, files) = (next, files) ∧ Mirrors next files := by
  induction asked generalizing store with
  | nil => exact ⟨store, rfl, mirrors⟩
  | cons i asked ih =>
    obtain ⟨next, done, mirrors⟩ := mirrors.fetch i
    obtain ⟨last, whole, mirrors⟩ := ih mirrors
    refine ⟨last, ?_, mirrors⟩
    rw [Store.afterGets, List.foldl_cons, done]
    exact whole

end Store

namespace Snapshot

structure Recordable (s : Snapshot Float) : Prop where
  dimension : Double.Holds s.task.dimension
  method : ∃ m : Method, s.method = .text m.name
  sized : s.Sized
  gradientNorm : ∀ x ∈ s.gradientNorm, Scalar.isNaN x = false
  condition : ∀ x ∈ s.condition, Scalar.isNaN x = false
  iteration : ∃ n : Int, s.memory.iteration = Scalar.ofInt n ∧ Double.Holds n
  rows : ∃ n : Int, s.rows = Scalar.ofInt n ∧ Double.Holds n

variable {s : Snapshot Float}

theorem Recordable.storable (recordable : s.Recordable) : s.Storable := by
  obtain ⟨m, method⟩ := recordable.method
  obtain ⟨iteration, counted, iterationHeld⟩ := recordable.iteration
  obtain ⟨rows, seen, rowsHeld⟩ := recordable.rows
  refine ⟨s.cells m, toCells_eq method, ?_⟩
  rw [ofCells_cells recordable.sized method recordable.dimension.wholeCell
    (seen ▸ rowsHeld.isWhole) (counted ▸ iterationHeld.isWhole),
    readBack_eq recordable.gradientNorm recordable.condition]

end Snapshot

namespace Store

variable {store : Store Float} {files : Directory Float} {puts : List (Int × Snapshot Float)}

theorem held_putAll (durable : store.durable = true) (recordable : ∀ p ∈ puts, p.2.Recordable)
    {state : Store Float × Directory Float}
    (done : (putAll puts).run (store, files) = (.ok (), state)) {i : Int} {s : Snapshot Float}
    (last : lastUnder puts i = some s) : held state.2 i = .ok (some s) := by
  obtain ⟨cells, written, read⟩ := (recordable _ (mem_of_lastUnder last)).storable
  have file := read?_putAll durable done i
  rw [last, Option.elim_some, written] at file
  rw [held, file]
  change some <$> Snapshot.ofCells cells = _
  rw [read, map_ok]

theorem held_of_never {α : Type} [Scalar α] {store : Store α} {files : Directory α}
    {puts : List (Int × Snapshot α)} (durable : store.durable = true)
    {state : Store α × Directory α}
    (done : (putAll puts).run (store, files) = (.ok (), state)) {i : Int}
    (never : ∀ p ∈ puts, p.1 ≠ i) : held state.2 i = held files i := by
  rw [held, read?_putAll durable done, lastUnder_eq_none never]
  rfl

theorem reopened_holds_last (durable : store.durable = true)
    (recordable : ∀ p ∈ puts, p.2.Recordable) :
    (∃ state, (putAll puts).run (store, files) = (.ok (), state)) ∧
    (∀ state, (putAll puts).run (store, files) = (.ok (), state) → ∀ (asked : List Int) (i : Int),
      let opened := afterGets asked (.empty true, state.2)
      (∀ s, lastUnder puts i = some s → ((fetch (.ofInt i)).run opened).1 = .ok (some s)) ∧
      ((∀ p ∈ puts, p.1 ≠ i) → files.read? (Key.fileNameOf i) = none →
        ((fetch (.ofInt i)).run opened).1 = .error (.notStored (toString i)))) ∧
    Function.Injective Key.fileNameOf := by
  refine ⟨?_, fun state done asked i => ?_, fun _ _ => Key.fileNameOf_injective⟩
  · exact exists_run_putAll durable fun p member =>
      (recordable p member).storable.imp fun _ stored => stored.1
  obtain ⟨store', same, mirrors⟩ := (mirrors_empty state.2).afterGets asked
  obtain ⟨next, answer, -⟩ := mirrors.fetch i
  intro opened
  have same : opened = (store', state.2) := same
  rw [same, answer]
  refine ⟨fun s last => held_putAll durable recordable done last, fun never missing => ?_⟩
  change held state.2 i = _
  rw [held_of_never durable done never, held, missing]

theorem reopened_holds_last_repeated :
    let puts : List (Int × Snapshot Float) :=
      [(3, .counted 1), (-7, .counted 2), (12345, .counted 1), (3, .counted 2)]
    ∃ state, (putAll puts).run (.empty true, []) = (.ok (), state) ∧
      let opened := afterGets [12345, 7] (.empty true, state.2)
      ((fetch (.ofInt 3)).run opened).1 = .ok (some (.counted 2)) ∧
      ((fetch (.ofInt (-7))).run opened).1 = .ok (some (.counted 2)) ∧
      ((fetch (.ofInt 12345)).run opened).1 = .ok (some (.counted 1)) ∧
      ((fetch (.ofInt 7)).run opened).1 = .error (.notStored "7") := by
  intro puts
  have one : Double.Holds 1 := Double.holds_ofNat (n := 1) (by decide)
  have two : Double.Holds 2 := Double.holds_ofNat (n := 2) (by decide)
  have recordable {k : Nat} (held : Double.Holds k) : (Snapshot.counted k).Recordable :=
    ⟨one, ⟨.newton, rfl⟩, ⟨rfl, ⟨nofun, nofun⟩, nofun⟩, nofun, nofun, ⟨k, rfl, held⟩, ⟨1, rfl, one⟩⟩
  have every : ∀ p ∈ puts, p.2.Recordable := by
    simp [puts, recordable one, recordable two]
  obtain ⟨⟨state, done⟩, found, -⟩ := @reopened_holds_last (.empty true) [] puts rfl every
  have answers := found state done [12345, 7]
  refine ⟨state, done, (answers 3).1 _ rfl, (answers (-7)).1 _ rfl, (answers 12345).1 _ rfl, ?_⟩
  exact (answers 7).2 (by simp [puts]) rfl

end Store

end Passwise
