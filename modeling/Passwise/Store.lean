import Passwise.Snapshot.Cells

set_option autoImplicit false

namespace Passwise

variable {α : Type}

abbrev Directory (α : Type) := List (String × List α)

namespace Directory

def read? (files : Directory α) (name : String) : Option (List α) := files.lookup name

def write (files : Directory α) (name : String) (cells : List α) : Directory α :=
  (name, cells) :: files.filter (·.1 != name)

def names (files : Directory α) : List String := (files.map (·.1)).mergeSort fun a b => !(b < a)

@[simp] theorem read?_write_self (files : Directory α) (name : String) (cells : List α) :
    (files.write name cells).read? name = some cells := by
  simp [write, read?]

theorem read?_write_of_ne (files : Directory α) {name other : String} (h : other ≠ name)
    (cells : List α) : (files.write name cells).read? other = files.read? other := by
  have h' : (other == name) = false := by simpa using h
  simp only [write, read?, List.lookup_cons, h']
  induction files with
  | nil => rfl
  | cons file rest ih =>
    obtain ⟨found, old⟩ := file
    by_cases hf : found = name
    · subst hf
      simp [List.lookup_cons, h', ih]
    · by_cases ho : other = found <;> simp [hf, ho, List.lookup_cons, ih]

end Directory

structure Store.Key where
  iteration : Option Int
  shown : String
  fileName : Except Error String

namespace Store.Key

def fileNameOf (iteration : Int) : String :=
  let digits := toString iteration.natAbs
  let sign := if iteration < 0 then "-" else ""
  let zeros := String.ofList (List.replicate (4 - sign.length - digits.length) '0')
  s!"iter_{sign}{zeros}{digits}.pt"

def ofInt (iteration : Int) : Key := ⟨some iteration, toString iteration, .ok (fileNameOf iteration)⟩

end Store.Key

structure Store (α : Type) [Scalar α] where
  durable : Bool
  kept : List (Int × Option (Snapshot α))

variable [Scalar α]

namespace Store

def empty (durable : Bool) : Store α := ⟨durable, []⟩

def keep (store : Store α) (iteration : Int) (entry : Option (Snapshot α)) : Store α :=
  if (store.kept.lookup iteration).isSome then
    { store with kept := store.kept.map fun (i, old) => if i = iteration then (i, entry) else (i, old) }
  else { store with kept := store.kept ++ [(iteration, entry)] }

theorem lookup_replace (kept : List (Int × Option (Snapshot α))) {iteration : Int}
    {entry : Option (Snapshot α)} (h : (kept.lookup iteration).isSome) :
    (kept.map fun (i, old) => if i = iteration then (i, entry) else (i, old)).lookup iteration =
      some entry := by
  induction kept with
  | nil => simp at h
  | cons first rest ih =>
    obtain ⟨i, old⟩ := first
    by_cases hi : i = iteration
    · simp [hi]
    · have hb : (iteration == i) = false := by simpa using Ne.symm hi
      rw [List.lookup_cons, hb] at h
      simpa [hi, List.lookup_cons, hb] using ih h

theorem lookup_keep_self (store : Store α) (iteration : Int) (entry : Option (Snapshot α)) :
    (store.keep iteration entry).kept.lookup iteration = some entry := by
  unfold keep
  split
  · next h => exact lookup_replace store.kept h
  · next h =>
    have absent : store.kept.lookup iteration = none := Option.not_isSome_iff_eq_none.1 h
    simp [List.lookup_append, absent]

def find? (store : Store α) (key : Key) : Option (Option (Snapshot α)) :=
  key.iteration.bind fun iteration => store.kept.lookup iteration

def contains (store : Store α) (key : Key) : Bool := (store.find? key).isSome

def size (store : Store α) : Nat := store.kept.length

def latest (store : Store α) : Option (Snapshot α) :=
  (store.kept.foldl (fun best entry =>
    match best with
    | none => some entry
    | some greatest => if greatest.1 < entry.1 then some entry else best) none).bind (·.2)

def place (key : Key) (entry : Option (Snapshot α)) : Update (Store α × Directory α) Unit := do
  modify fun (store, files) =>
    (key.iteration.elim store fun iteration => store.keep iteration entry, files)
  if (← get).1.durable then
    let name ← Update.ofExcept key.fileName
    let cells ← Update.ofExcept (entry.elim (.error .missingPart) Snapshot.toCells)
    modify fun (store, files) => (store, files.write name cells)

def put (key : Key) (result : Option (Snapshot α)) : Update (Store α × Directory α) Unit :=
  -- A pass without data has no result to keep.
  match result with
  | none => throw .noStoredData
  | some s => place key (some s)

def fetch (key : Key) : Update (Store α × Directory α) (Option (Snapshot α)) := do
  -- What is read from a file is kept in memory from then on.
  let (store, files) ← get
  match store.find? key with
  | some entry => return entry
  | none =>
    let found ← if store.durable then
        let name ← Update.ofExcept key.fileName
        pure (files.read? name)
      else pure none
    match found with
    | none => throw (.notStored key.shown)
    | some cells =>
      let s ← Update.ofExcept (Snapshot.ofCells cells)
      modify fun (store, files) =>
        (key.iteration.elim store fun iteration => store.keep iteration (some s), files)
      return some s

end Store

end Passwise
