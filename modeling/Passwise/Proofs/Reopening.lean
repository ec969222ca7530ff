import Passwise.Proofs.Restart

set_option autoImplicit false

namespace Passwise

namespace Store

namespace Key

def sign (i : Int) : List Char := if i < 0 then ['-'] else []

-- The number of zeros does not matter: a reader of the digits passes over them.
theorem toList_fileNameOf (i : Int) : ∃ zeros, (fileNameOf i).toList =
    "iter_".toList ++ (sign i ++ (List.replicate zeros '0' ++ Nat.toDigits 10 i.natAbs)) ++
      ".pt".toList := by
  have digits : (toString i.natAbs).toList = Nat.toDigits 10 i.natAbs := Nat.toList_repr
  have front : (if i < 0 then "-" else "").toList = sign i := by
    unfold sign
    split_ifs <;> rfl
  unfold fileNameOf
  simp only [toString, String.toList_append, String.toList_ofList] at digits front ⊢
  simp only [digits, front, List.append_assoc]
  exact ⟨_, rfl⟩

theorem isDigit_head {zeros n : Nat} {c : Char} {rest : List Char}
    (whole : List.replicate zeros '0' ++ Nat.toDigits 10 n = c :: rest) : c.isDigit = true := by
  have member : c ∈ List.replicate zeros '0' ++ Nat.toDigits 10 n := by simp [whole]
  rcases List.mem_append.mp member with zero | digit
  · rw [List.eq_of_mem_replicate zero]
    rfl
  · exact Nat.isDigit_of_mem_toDigits (by decide) (by decide) digit

theorem ofDigitChars_padded (zeros n : Nat) :
    Nat.ofDigitChars 10 (List.replicate zeros '0' ++ Nat.toDigits 10 n) 0 = n := by
  rw [Nat.ofDigitChars_append, Nat.ofDigitChars_replicate_zero, Nat.mul_zero,
    Nat.ofDigitChars_ten_toDigits]

theorem fileNameOf_injective {i j : Int} (same : fileNameOf i = fileNameOf j) : i = j := by
  obtain ⟨zeros, name⟩ := toList_fileNameOf i
  obtain ⟨zeros', name'⟩ := toList_fileNameOf j
  rw [same, name', List.append_left_inj, List.append_right_inj] at name
  have unsigned {n z : Nat} {rest : List Char}
      (whole : List.replicate z '0' ++ Nat.toDigits 10 n = '-' :: rest) : False :=
    absurd (isDigit_head whole) (by decide)
  have number {m n z z' : Nat} (whole : List.replicate z '0' ++ Nat.toDigits 10 m =
      List.replicate z' '0' ++ Nat.toDigits 10 n) : m = n := by
    rw [← ofDigitChars_padded z m, whole, ofDigitChars_padded]
  unfold sign at name
  split_ifs at name with below below'
  · have size := number (List.append_cancel_left name)
    omega
  · exact (unsigned name.symm).elim
  · exact (unsigned name).elim
  · have size := number name
    omega

end Key

variable {α : Type} [Scalar α] {i j : Int} {s : Snapshot α} {store : Store α}
  {files : Directory α} {cells : List α}

omit [Scalar α] in
theorem read?_write (files : Directory α) (i j : Int) (cells : List α) :
    (files.write (Key.fileNameOf j) cells).read? (Key.fileNameOf i) =
      if i = j then some cells else files.read? (Key.fileNameOf i) := by
  split_ifs with same
  · rw [same, Directory.read?_write_self]
  · exact files.read?_write_of_ne (fun names => same (Key.fileNameOf_injective names)) cells

section Fetching

theorem run_fetch_of_kept {entry : Option (Snapshot α)} (kept : store.kept.lookup i = some entry)
    (files : Directory α) :
    (fetch (.ofInt i)).run (store, files) = (.ok entry, store, files) := by
  have known : store.find? (.ofInt i) = some entry := kept
  rw [fetch, Update.run_bind_ok (Update.run_get _)]
  dsimp only
  rw [known]
  rfl

theorem run_fetch_of_missing (kept : store.kept.lookup i = none) (durable : store.durable = true)
    (missing : files.read? (Key.fileNameOf i) = none) :
    (fetch (.ofInt i)).run (store, files) = (.error (.notStored (toString i)), store, files) := by
  have unknown : store.find? (.ofInt i) = none := kept
  have name : (Key.ofInt i).fileName = .ok (Key.fileNameOf i) := rfl
  rw [fetch, Update.run_bind_ok (Update.run_get _)]
  dsimp only
  rw [unknown, durable, if_pos rfl, name]
  dsimp only
  rw [Update.run_bind_ok (Update.run_ofExcept _ _), missing, pure_bind]
  rfl

theorem run_fetch_of_file (kept : store.kept.lookup i = none) (durable : store.durable = true)
    (found : files.read? (Key.fileNameOf i) = some cells)
    (read : Snapshot.ofCells cells = .ok s) :
    (fetch (.ofInt i)).run (store, files) = (.ok (some s), store.keep i (some s), files) := by
  have unknown : store.find? (.ofInt i) = none := kept
  have name : (Key.ofInt i).fileName = .ok (Key.fileNameOf i) := rfl
  rw [fetch, Update.run_bind_ok (Update.run_get _)]
  dsimp only
  rw [unknown, durable, if_pos rfl, name]
  dsimp only
  rw [Update.run_bind_ok (Update.run_ofExcept _ _), found, pure_bind]
  dsimp only
  rw [read, Update.run_bind_ok (Update.run_ofExcept _ _), Update.run_bind_ok (Update.run_modify _ _)]
  rfl

end Fetching

end Store

def Snapshot.Storable {α : Type} [Scalar α] (s : Snapshot α) : Prop :=
  ∃ cells, s.toCells = .ok cells ∧ ofCells cells = .ok s

theorem Snapshot.storable_of_fits {s : Snapshot Float} {d : Nat} (fits : s.Fits d)
    (dimension : Double.Holds d) (rows : IsWhole s.rows) (iteration : IsWhole s.memory.iteration)
    (gradientNorm : ∀ x ∈ s.gradientNorm, Scalar.isNaN x = false)
    (condition : ∀ x ∈ s.condition, Scalar.isNaN x = false) : s.Storable := by
  obtain ⟨cells, written, -, read⟩ := readBack_of_fits fits dimension rows iteration
  rw [readBack_eq gradientNorm condition] at read
  exact ⟨cells, written, read⟩

inductive Access (α : Type) [Scalar α] where
  | reopen
  | put (i : Int) (s : Snapshot α)
  | get (i : Int)

namespace Access

variable {α : Type} [Scalar α] {i j : Int} {s : Snapshot α} {xs : List (Access α)}
  {state : Store α × Directory α}

def after (state : Store α × Directory α) : Access α → Store α × Directory α
  | reopen => (.empty true, state.2)
  | put i s => ((Store.put (.ofInt i) (some s)).run state).2
  | get i => ((Store.fetch (.ofInt i)).run state).2

def run (xs : List (Access α)) : Store α × Directory α := xs.foldl after (.empty true, [])

def Safe : Access α → Prop
  | put _ s => s.Storable
  | reopen | get _ => True

def put? (i : Int) : Access α → Option (Snapshot α)
  | put j s => if i = j then some s else none
  | reopen | get _ => none

def key? : Access α → Option Int
  | put i _ | get i => some i
  | reopen => none

def lastPut (xs : List (Access α)) (i : Int) : Option (Snapshot α) := xs.reverse.findSome? (put? i)

def asked (xs : List (Access α)) : List (Option Int) :=
  (xs.reverse.map key?).takeWhile (·.isSome)

theorem lastPut_snoc (xs : List (Access α)) (x : Access α) (i : Int) :
    lastPut (xs ++ [x]) i = (x.put? i).or (lastPut xs i) := by
  rw [lastPut, List.reverse_append, List.reverse_singleton, List.singleton_append,
    List.findSome?_cons]
  cases x.put? i <;> rfl

theorem asked_snoc (xs : List (Access α)) (x : Access α) :
    asked (xs ++ [x]) = if x.key?.isSome then x.key? :: asked xs else [] := by
  rw [asked, List.reverse_append, List.reverse_singleton, List.singleton_append, List.map_cons,
    List.takeWhile_cons]
  rfl

structure Agrees (xs : List (Access α)) (state : Store α × Directory α) : Prop where
  durable : state.1.durable = true
  files : ∀ i, Option.Rel (fun cells s => Snapshot.ofCells cells = .ok s)
    (state.2.read? (Store.Key.fileNameOf i)) (lastPut xs i)
  kept : ∀ i, state.1.kept.lookup i =
    if some i ∈ asked xs then (lastPut xs i).map some else none

namespace Agrees

theorem nil : Agrees ([] : List (Access α)) (.empty true, []) :=
  ⟨rfl, fun _ => .none, fun _ => rfl⟩

theorem reopen (agrees : Agrees xs state) : Agrees (xs ++ [.reopen]) (.empty true, state.2) := by
  refine ⟨rfl, fun i => ?_, fun i => ?_⟩
  · rw [lastPut_snoc]
    exact agrees.files i
  · rw [asked_snoc]
    rfl

theorem put (agrees : Agrees xs state) (i : Int) (storable : s.Storable) :
    ∃ next, (Store.put (.ofInt i) (some s)).run state = (.ok (), next) ∧
      Agrees (xs ++ [.put i s]) next := by
  obtain ⟨store, files⟩ := state
  obtain ⟨cells, written, read⟩ := storable
  refine ⟨(store.keep i (some s), files.write (Store.Key.fileNameOf i) cells), ?_, ?_⟩
  · rw [Store.run_put (k := i) rfl rfl, if_pos agrees.durable, written]
  constructor
  case durable => rw [Store.durable_keep, agrees.durable]
  case files =>
    intro j
    rw [lastPut_snoc, put?, Store.read?_write]
    by_cases same : j = i
    · rw [if_pos same, if_pos same]
      exact .some read
    · rw [if_neg same, if_neg same, Option.none_or]
      exact agrees.files j
  case kept =>
    intro j
    rw [lastPut_snoc, asked_snoc, put?, Store.lookup_keep]
    by_cases same : j = i
    · simp [same, key?]
    · simp [same, key?, agrees.kept j]

theorem getting (agrees : Agrees xs state) (i : Int) {store : Store α}
    (durable : store.durable = true) (kept : ∀ j, store.kept.lookup j =
      if j = i then (lastPut xs i).map some else state.1.kept.lookup j) :
    Agrees (xs ++ [.get i]) (store, state.2) := by
  refine ⟨durable, fun j => ?_, fun j => ?_⟩
  · rw [lastPut_snoc]
    exact agrees.files j
  · rw [kept, lastPut_snoc, asked_snoc]
    by_cases same : j = i
    · simp [same, key?, put?]
    · simp [same, key?, put?, agrees.kept j]

theorem get (agrees : Agrees xs state) (i : Int) :
    ∃ next, (Store.fetch (.ofInt i)).run state =
      ((lastPut xs i).elim (.error (.notStored (toString i))) (.ok ∘ some), next) ∧
      Agrees (xs ++ [.get i]) next := by
  obtain ⟨store, files⟩ := state
  have unchanged (same : store.kept.lookup i = (lastPut xs i).map some) :
      Agrees (xs ++ [.get i]) (store, files) := by
    refine agrees.getting i agrees.durable fun j => ?_
    split_ifs with here
    · rw [here, same]
    · rfl
  have stored := agrees.kept i
  have written := agrees.files i
  rcases kept : store.kept.lookup i with _ | entry
  · cases last : lastPut xs i with
    | none =>
      rw [last] at written unchanged
      cases missing : files.read? (Store.Key.fileNameOf i) with
      | some cells =>
        rw [missing] at written
        cases written
      | none =>
        exact ⟨_, Store.run_fetch_of_missing kept agrees.durable missing, unchanged kept⟩
    | some s =>
      rw [last] at written
      cases found : files.read? (Store.Key.fileNameOf i) with
      | none =>
        rw [found] at written
        cases written
      | some cells =>
        rw [found] at written
        obtain read | _ := written
        refine ⟨_, Store.run_fetch_of_file kept agrees.durable found read, ?_⟩
        refine agrees.getting i ((Store.durable_keep _ _ _).trans agrees.durable) fun j => ?_
        rw [Store.lookup_keep, last]
        rfl
  · have here : (lastPut xs i).map some = some entry := by
      split_ifs at stored
      · exact stored.symm.trans kept
      · cases stored.symm.trans kept
    obtain ⟨s, last, rfl⟩ := Option.map_eq_some_iff.mp here
    refine ⟨_, ?_, unchanged (kept.trans here.symm)⟩
    rw [Store.run_fetch_of_kept kept, last]
    rfl

end Agrees

theorem agrees_run (xs : List (Access α)) (safe : ∀ x ∈ xs, x.Safe) : Agrees xs (run xs) := by
  induction xs using List.reverseRecOn with
  | nil => exact .nil
  | append_singleton xs x ih =>
    obtain ⟨earlier, last⟩ := List.forall_mem_append.mp safe
    have agrees := ih earlier
    have step : run (xs ++ [x]) = after (run xs) x := by
      rw [run, List.foldl_append]
      rfl
    rw [step]
    cases x with
    | reopen => exact agrees.reopen
    | put i s =>
      obtain ⟨next, done, agrees⟩ := agrees.put i (last _ (List.mem_singleton.mpr rfl) : s.Storable)
      rw [after, done]
      exact agrees
    | get i =>
      obtain ⟨next, done, agrees⟩ := agrees.get i
      rw [after, done]
      exact agrees

theorem mem_asked {i : Int} (whole : .reopen ∉ xs) (put : (lastPut xs i).isSome = true) :
    some i ∈ asked xs := by
  induction xs using List.reverseRecOn with
  | nil => cases put
  | append_singleton xs x ih =>
    rw [List.mem_append, not_or] at whole
    rw [lastPut_snoc] at put
    rw [asked_snoc]
    cases x with
    | reopen => exact absurd (List.mem_singleton.mpr rfl) whole.2
    | put j s =>
      by_cases same : i = j
      · simp [same, key?]
      · rw [put?, if_neg same, Option.none_or] at put
        simp [key?, ih whole.1 put]
    | get j => simp [key?, ih whole.1 put]

structure Serves (xs : List (Access α)) (state : Store α × Directory α) : Prop where
  found : ∀ i s, lastPut xs i = some s →
    ((Store.fetch (.ofInt i)).run state).1 = .ok (some s)
  missing : ∀ i, lastPut xs i = none →
    ((Store.fetch (.ofInt i)).run state).1 = .error (.notStored (toString i))
  contains : ∀ i, state.1.contains (.ofInt i) = true ↔
    some i ∈ asked xs ∧ (lastPut xs i).isSome = true
  latest : (state.1.latest = none ∧ ∀ i, state.1.contains (.ofInt i) = false) ∨
    ∃ i s, state.1.latest = some s ∧ lastPut xs i = some s ∧
      state.1.contains (.ofInt i) = true ∧ ∀ j, state.1.contains (.ofInt j) = true → j ≤ i

theorem Agrees.serves (agrees : Agrees xs state) : Serves xs state := by
  have contains (i : Int) : state.1.contains (.ofInt i) = (state.1.kept.lookup i).isSome := rfl
  constructor
  case found =>
    intro i s last
    obtain ⟨next, done, -⟩ := agrees.get i
    rw [done, last]
    rfl
  case missing =>
    intro i last
    obtain ⟨next, done, -⟩ := agrees.get i
    rw [done, last]
    rfl
  case contains =>
    intro i
    rw [contains, agrees.kept]
    split_ifs with own
    · simp [own]
    · simp [own]
  case latest =>
    rcases Store.latest_cases state.1 with ⟨none, empty⟩ | ⟨i, entry, latest, here, top⟩
    · exact .inl ⟨none, fun i => by rw [contains, empty]; rfl⟩
    · have stored := agrees.kept i
      rw [here] at stored
      split_ifs at stored
      obtain ⟨s, last, rfl⟩ := Option.map_eq_some_iff.mp stored.symm
      exact .inr ⟨i, s, latest, last, by rw [contains, here]; rfl, top⟩

theorem run_serves (xs : List (Access α)) (safe : ∀ x ∈ xs, x.Safe) :
    Serves xs (run xs) ∧
      (.reopen ∉ xs → ∀ i, (run xs).1.contains (.ofInt i) = true ↔
        ∃ s, ((Store.fetch (.ofInt i)).run (run xs)).1 = .ok s) := by
  have serves := (agrees_run xs safe).serves
  refine ⟨serves, fun whole i => ?_⟩
  rw [serves.contains]
  cases last : lastPut xs i with
  | none =>
    rw [serves.missing i last]
    simp
  | some s =>
    have own := mem_asked whole (i := i) (by rw [last]; rfl)
    rw [serves.found i s last]
    simp [own]

end Access

def Snapshot.counted (k : Nat) : Snapshot Float where
  task := .halving
  model := [0]
  loss := 0
  rows := Scalar.ofNat 1
  method := .text Newton.name
  memory := ⟨Scalar.ofNat k, none, none⟩
  gradientNorm := none
  condition := none
  inverseDiagonal := none

theorem Snapshot.storable_counted {k : Nat} (small : k < 2 ^ 53) : (counted k).Storable := by
  have fits : (counted k).Fits 1 :=
    ⟨rfl, rfl, ⟨nofun, nofun⟩, nofun, .newton, rfl⟩
  have one : Double.Holds (1 : Nat) := Double.holds_ofNat (by decide)
  exact storable_of_fits fits one (isWhole_ofNat (by decide)) (isWhole_ofNat small) nofun nofun

namespace Access

theorem run_serves_counted :
    let xs : List (Access Float) := [.put 1 (.counted 1), .put 2 (.counted 2), .reopen, .get 1]
    (∀ x ∈ xs, x.Safe) ∧
      ((Store.fetch (.ofInt 2)).run (run xs)).1 = .ok (some (.counted 2)) ∧
      (run xs).1.contains (.ofInt 1) = true ∧ (run xs).1.contains (.ofInt 2) = false ∧
      (run xs).1.latest = some (.counted 1) := by
  intro xs
  have safe : ∀ x ∈ xs, x.Safe := by
    have storable {k : Nat} (small : k < 2 ^ 53) := Snapshot.storable_counted small
    simp [xs, Safe, storable]
  have serves := (run_serves xs safe).1
  have asked : asked xs = [some 1] := rfl
  have one : (run xs).1.contains (.ofInt 1) = true := by
    rw [serves.contains, asked]
    exact ⟨by simp, rfl⟩
  have two : (run xs).1.contains (.ofInt 2) = false := by
    rw [← Bool.not_eq_true, serves.contains, asked]
    simp
  refine ⟨safe, serves.found 2 _ rfl, one, two, ?_⟩
  rcases serves.latest with ⟨-, none⟩ | ⟨i, s, latest, last, own, -⟩
  · cases one.symm.trans (none 1)
  · obtain rfl : i = 1 := by
      have member := ((serves.contains i).mp own).1
      rw [asked] at member
      simpa using member
    rw [latest, ← last]
    rfl

theorem reopened_store_has_no_latest :
    let xs : List (Access Float) := [.put 1 (.counted 1), .reopen]
    ((Store.fetch (.ofInt 1)).run (run xs)).1 = .ok (some (.counted 1)) ∧
      (run xs).1.contains (.ofInt 1) = false ∧ (run xs).1.latest = none := by
  intro xs
  have safe : ∀ x ∈ xs, x.Safe := by
    simp [xs, Safe, Snapshot.storable_counted]
  have serves := (agrees_run xs safe).serves
  exact ⟨serves.found 1 _ rfl, rfl, rfl⟩

end Access

end Passwise
