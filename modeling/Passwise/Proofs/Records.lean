import Mathlib
import Passwise.Proofs.Readings

set_option autoImplicit false

namespace Passwise

theorem Cell.number_ofNumber (c : Cell) : (Cell.ofNumber? c.number?).number? = c.number? := by
  cases known : c.number? with
  | none => rfl
  | some x => exact Cell.number?_real.mpr ⟨Cell.isNaN_of_number known, rfl⟩

namespace Column

variable {cells cells' : List Cell}

theorem number_toReals (cells : List Cell) :
    (toReals cells).map Cell.number? = cells.map Cell.number? := by
  rw [toReals, List.map_map]
  exact List.map_congr_left fun c _ => Cell.number_ofNumber c

theorem number_of_settle (settled : settle cells = .ok cells') :
    cells'.map Cell.number? = cells.map Cell.number? := by
  obtain ⟨seen, surveyed, rest⟩ := bind_eq_ok.mp settled
  cases seen with
  | none =>
    cases rest
    rfl
  | some seen =>
    dsimp only at rest
    split_ifs at rest
    · cases rest
      exact number_toReals cells
    · cases rest
      rfl

theorem exists_settle (doubles : ∀ n, Cell.whole n ∈ cells → (Float.ofInt n).isInf = false) :
    ∃ cells', settle cells = .ok cells' := by
  have surveyed (seen : Survey) : ∃ result, survey seen cells = .ok result := by
    induction cells generalizing seen with
    | nil => exact ⟨_, rfl⟩
    | cons c rest ih =>
      have ih := ih fun n member => doubles n (.tail c member)
      cases c with
      | missing | flag | real => exact ih _
      | text | collection => exact ⟨none, rfl⟩
      | whole n =>
        have fits : Literal.floatOfInt n = .ok (Float.ofInt n) :=
          if_neg (Bool.not_eq_true _ ▸ doubles n (.head rest))
        rw [survey, fits, ok_bind]
        dsimp only
        split_ifs
        · exact ih _
        · exact ⟨none, rfl⟩
        · exact ih _
  obtain ⟨result, known⟩ := surveyed {}
  rw [settle, known, ok_bind]
  cases result with
  | none => exact ⟨_, rfl⟩
  | some seen => exact ⟨_, rfl⟩

end Column

namespace Table

variable {records : List Record} {names seen : List String} {name : String} {t : Table}

theorem foldl_names (record : Record) (distinct : (record.map Prod.fst).Nodup)
    (fresh : ∀ name ∈ record.map Prod.fst, name ∉ seen) :
    record.foldl (fun names (entry : String × Cell) =>
      if names.contains entry.1 then names else names ++ [entry.1]) seen =
        seen ++ record.map Prod.fst := by
  induction record generalizing seen with
  | nil => exact (List.append_nil seen).symm
  | cons entry rest ih =>
    obtain ⟨apart, distinct⟩ := List.nodup_cons.mp distinct
    have new : seen.contains entry.1 = false := by
      rw [← Bool.not_eq_true, List.contains_iff_mem]
      exact fresh entry.1 (.head _)
    rw [List.foldl_cons, new, if_neg Bool.false_ne_true, ih distinct, List.append_assoc]
    · rfl
    · intro name member inside
      rcases List.mem_append.mp inside with earlier | same
      · exact fresh name (.tail _ member) earlier
      · exact apart (List.mem_singleton.mp same ▸ member)

theorem foldl_names_of_subset (record : Record) (known : record.map Prod.fst ⊆ seen) :
    record.foldl (fun names (entry : String × Cell) =>
      if names.contains entry.1 then names else names ++ [entry.1]) seen = seen := by
  induction record with
  | nil => rfl
  | cons entry rest ih =>
    have old : seen.contains entry.1 = true := List.contains_iff_mem.mpr (known (.head _))
    rw [List.foldl_cons, if_pos old]
    exact ih (List.subset_of_cons_subset known)

theorem namesOf_eq (distinct : names.Nodup)
    (alike : ∀ record ∈ records, record.map Prod.fst = names) (given : records ≠ []) : namesOf records = names := by
  cases records with
  | nil => exact absurd rfl given
  | cons record rest =>
    have first := alike record (.head rest)
    rw [namesOf, List.foldl_cons,
      foldl_names record (first ▸ distinct) (fun _ _ => List.not_mem_nil), List.nil_append, first]
    have later : ∀ record ∈ rest, record.map Prod.fst = names := fun r member =>
      alike r (.tail record member)
    clear given first alike
    induction rest with
    | nil => rfl
    | cons r rest ih =>
      rw [List.foldl_cons, foldl_names_of_subset r (later r (.head rest) ▸ List.Subset.refl _)]
      exact ih fun r' member => later r' (.tail r member)

def under (records : List Record) (name : String) : List Cell :=
  records.map fun record => (record.lookup name).getD (.real (0 / 0))

theorem columns_align (records : List Record) :
    (align records).columns = (namesOf records).map (under records) := by
  refine List.ext_getElem (by simp [columns, align]) fun i _ inside => ?_
  rw [List.length_map] at inside
  simp [columns, align, columnAt, under, cell, inside]

theorem length_ofRecords (made : ofRecords records = .ok t) : t.rows.length = records.length := by
  obtain ⟨columns, -, whole⟩ := bind_eq_ok.mp made
  cases whole
  simp [ofColumns, align]

def numberAt? (t : Table) (name : String) (i : Nat) : Option Float :=
  (t.cellAt? name i).bind Cell.number?

theorem lt_of_numberAt? {i : Nat} {x : Float} (number : t.numberAt? name i = some x) :
    i < t.rows.length := by
  obtain ⟨c, known, -⟩ := Option.bind_eq_some_iff.mp number
  obtain ⟨cells, found, inside⟩ := Option.bind_eq_some_iff.mp known
  rw [← length_of_column? found]
  exact (List.getElem?_eq_some_iff.mp inside).1

section Settling

def settled (records : List Record) (name : String) : List Cell :=
  (Column.settle (under records name)).toOption.getD []

variable (settles : ∀ name ∈ namesOf records,
  ∃ cells, Column.settle (under records name) = .ok cells)

include settles

theorem settle_under (member : name ∈ namesOf records) :
    Column.settle (under records name) = .ok (settled records name) := by
  obtain ⟨cells, known⟩ := settles name member
  rw [settled, known]
  rfl

theorem ofRecords_eq : ofRecords records =
    .ok (ofColumns (namesOf records) records.length ((namesOf records).map (settled records))) := by
  have columns : (align records).columns.mapM Column.settle =
      .ok ((namesOf records).map (settled records)) := by
    rw [columns_align, List.mapM_map]
    exact mapM_ok fun name => settle_under settles
  rw [ofRecords]
  simp only [columns, ok_bind]
  simp [align]

end Settling

variable (made : ofRecords records = .ok t)

include made

theorem settle_of_ofRecords (member : name ∈ namesOf records) :
    ∃ cells, Column.settle (under records name) = .ok cells := by
  obtain ⟨columns, settled, -⟩ := bind_eq_ok.mp made
  rw [columns_align, List.mapM_map] at settled
  exact ok_of_mem_mapM settled member

theorem column?_of_ofRecords (member : name ∈ namesOf records) :
    t.column? name = some (settled records name) := by
  have settles : ∀ name ∈ namesOf records,
      ∃ cells, Column.settle (under records name) = .ok cells := fun _ => settle_of_ofRecords made
  have count : (settled records name).length = records.length := by
    have same := congrArg List.length (Column.number_of_settle (settle_under settles member))
    simpa [under] using same
  rw [ofRecords_eq settles] at made
  cases made
  exact column?_ofColumns (settled records) member count

theorem numberAt?_of_ofRecords (member : name ∈ namesOf records) (i : Nat) :
    t.numberAt? name i = (under records name)[i]?.bind Cell.number? := by
  have settled := settle_under (fun name => settle_of_ofRecords made) member
  have same := congrArg (·[i]?) (Column.number_of_settle settled)
  simp only [List.getElem?_map] at same
  rw [numberAt?, cellAt?, column?_of_ofRecords made member, Option.bind_some]
  have both := congrArg (Option.bind · id) same
  rwa [Option.bind_map, Option.bind_map] at both

omit made

section Entries

variable {β : Type} {record : β → Record} {xs : List β} {x : β} {i : Nat} {c : Cell}

theorem under_map (record : β → Record) (xs : List β) (name : String) :
    under (xs.map record) name = xs.map fun x => ((record x).lookup name).getD (.real (0 / 0)) :=
  List.map_map ..

theorem under_congr {record' : β → Record} (name : String)
    (same : ∀ x, (record x).lookup name = (record' x).lookup name) :
    under (xs.map record) name = under (xs.map record') name := by
  rw [under_map, under_map]
  exact List.map_congr_left fun x _ => by rw [same x]

variable (distinct : names.Nodup) (alike : ∀ x, (record x).map Prod.fst = names)

include distinct alike

theorem namesOf_map (known : xs[i]? = some x) : namesOf (xs.map record) = names := by
  refine namesOf_eq distinct (fun entries member => ?_) ?_
  · obtain ⟨x, -, rfl⟩ := List.mem_map.mp member
    exact alike x
  · rintro none
    rw [List.map_eq_nil_iff.mp none] at known
    cases known

theorem numberAt?_of_map (made : ofRecords (xs.map record) = .ok t) (known : xs[i]? = some x)
    (found : (record x).lookup name = some c) : t.numberAt? name i = c.number? := by
  have listed : name ∈ names := by
    obtain ⟨before, after, same, -⟩ := List.lookup_eq_some_iff.mp found
    rw [← alike x, same]
    simp
  rw [numberAt?_of_ofRecords made (namesOf_map distinct alike known ▸ listed), under_map,
    List.getElem?_map, known, Option.map_some, found]
  rfl

theorem exists_ofRecords (settles : ∀ name ∈ names,
    ∃ cells, Column.settle (under (xs.map record) name) = .ok cells) :
    ∃ t, ofRecords (xs.map record) = .ok t := by
  refine ⟨_, ofRecords_eq fun name member => ?_⟩
  cases xs with
  | nil => cases member
  | cons x rest =>
    have known : (x :: rest)[0]? = some x := rfl
    exact settles name (namesOf_map distinct alike known ▸ member)

theorem column?_of_map (made : ofRecords (xs.map record) = .ok t) (known : xs[i]? = some x)
    (listed : name ∈ names) : t.column? name = some (settled (xs.map record) name) :=
  column?_of_ofRecords made (namesOf_map distinct alike known ▸ listed)

end Entries

end Table

end Passwise
