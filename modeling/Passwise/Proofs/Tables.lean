import Mathlib
import Passwise.Proofs.Update
import Passwise.Table.Csv.Read

set_option autoImplicit false

namespace Passwise

namespace Table

variable {t : Table} {name other : String} {cells : List Cell} {i : Nat}

def Wide (t : Table) : Prop := ∀ row ∈ t.rows, row.length = t.names.length

def cellAt? (t : Table) (name : String) (k : Nat) : Option Cell := (t.column? name).bind (·[k]?)

theorem index?_eq_none : t.index? name = none ↔ name ∉ t.names := List.idxOf?_eq_none_iff

theorem lt_of_index? (found : t.index? name = some i) : i < t.names.length :=
  (List.idxOf?_eq_some_iff.mp found).1

theorem getElem?_of_index? (found : t.index? name = some i) : t.names[i]? = some name := by
  obtain ⟨inside, same, -⟩ := List.idxOf?_eq_some_iff.mp found
  rw [List.getElem?_eq_getElem inside, same]

theorem ne_of_index? {j : Nat} (found : t.index? name = some i) (found' : t.index? other = some j)
    (apart : other ≠ name) : i ≠ j := by
  rintro rfl
  exact apart (Option.some.inj ((getElem?_of_index? found').symm.trans (getElem?_of_index? found)))

theorem column?_isSome : (t.column? name).isSome ↔ name ∈ t.names := by
  rw [column?, Option.isSome_map, ← not_iff_not, Bool.not_eq_true, Option.isSome_eq_false_iff,
    Option.isNone_iff_eq_none, index?_eq_none]

theorem length_of_column? (found : t.column? name = some cells) : cells.length = t.rows.length := by
  obtain ⟨i, -, rfl⟩ := Option.map_eq_some_iff.mp found
  exact List.length_map ..

theorem names_setColumn_of_some (found : t.index? name = some i) (cells : List Cell) :
    (t.setColumn name cells).names = t.names := by
  rw [setColumn, found]

theorem names_setColumn_of_none (absent : t.index? name = none) (cells : List Cell) :
    (t.setColumn name cells).names = t.names ++ [name] := by
  rw [setColumn, absent]

theorem mem_names_setColumn : other ∈ (t.setColumn name cells).names ↔
    other ∈ t.names ∨ other = name := by
  cases found : t.index? name with
  | some i =>
    rw [names_setColumn_of_some found]
    constructor
    · exact .inl
    · rintro (member | rfl)
      · exact member
      · exact List.mem_of_getElem? (getElem?_of_index? found)
  | none => rw [names_setColumn_of_none found, List.mem_append, List.mem_singleton]

theorem length_setColumn (count : cells.length = t.rows.length) :
    (t.setColumn name cells).rows.length = t.rows.length := by
  rw [setColumn]
  split <;> rw [List.length_zipWith, count, Nat.min_self]

theorem Wide.setColumn (wide : t.Wide) : (t.setColumn name cells).Wide := by
  intro row member
  rw [Table.setColumn] at member ⊢
  split at member <;> obtain ⟨k, inside, rfl⟩ := List.getElem_of_mem member
  · rw [List.getElem_zipWith, List.length_set]
    exact wide _ (List.getElem_mem _)
  · rw [List.getElem_zipWith, List.length_append, List.length_append, wide _ (List.getElem_mem _)]
    rfl

theorem index?_setColumn_self (t : Table) (name : String) (cells : List Cell) :
    (t.setColumn name cells).index? name = some ((t.index? name).getD t.names.length) := by
  cases found : t.index? name with
  | some i => rw [index?, names_setColumn_of_some found, ← index?, found, Option.getD_some]
  | none =>
    rw [index?, names_setColumn_of_none found, List.idxOf?, List.findIdx?_append, ← List.idxOf?,
      ← index?, found]
    simp

theorem index?_setColumn_of_ne (t : Table) (apart : other ≠ name) (cells : List Cell) :
    (t.setColumn name cells).index? other = t.index? other := by
  cases found : t.index? name with
  | some i => rw [index?, names_setColumn_of_some found, ← index?]
  | none =>
    rw [index?, names_setColumn_of_none found, List.idxOf?, List.findIdx?_append, ← List.idxOf?,
      ← index?]
    simp [apart.symm]

theorem column?_setColumn_self (wide : t.Wide) (count : cells.length = t.rows.length) :
    (t.setColumn name cells).column? name = some cells := by
  rw [column?, index?_setColumn_self, Option.map_some, columnAt]
  cases found : t.index? name with
  | some i =>
    refine congrArg some (List.ext_getElem (by simp [length_setColumn count, count]) ?_)
    intro k _ inside
    have fits := lt_of_index? found
    rw [← wide t.rows[k] (List.getElem_mem _)] at fits
    simp [setColumn, found, cell, fits]
  | none =>
    refine congrArg some (List.ext_getElem (by simp [length_setColumn count, count]) ?_)
    intro k _ inside
    rw [count] at inside
    have size := wide t.rows[k] (List.getElem_mem _)
    simp [setColumn, found, cell, ← size]

theorem column?_setColumn_of_ne (wide : t.Wide) (count : cells.length = t.rows.length)
    (apart : other ≠ name) : (t.setColumn name cells).column? other = t.column? other := by
  rw [column?, index?_setColumn_of_ne t apart, column?]
  cases found' : t.index? other with
  | none => rfl
  | some j =>
    refine congrArg some (List.ext_getElem (by simp [columnAt, length_setColumn count]) ?_)
    intro k _ inside
    rw [columnAt, List.length_map] at inside
    cases found : t.index? name with
    | some i => simp [columnAt, setColumn, found, cell, ne_of_index? found found' apart]
    | none =>
      have fits := lt_of_index? found'
      rw [← wide t.rows[k] (List.getElem_mem _)] at fits
      simp [columnAt, setColumn, found, cell, List.getElem?_append_left fits]

theorem setColumn_self (found : t.column? name = some cells) : t.setColumn name cells = t := by
  obtain ⟨i, place, rfl⟩ := Option.map_eq_some_iff.mp found
  rw [setColumn, place]
  dsimp only
  congr 1
  refine List.ext_getElem (by simp [columnAt]) fun k _ inside => ?_
  rw [List.getElem_zipWith]
  simp only [columnAt, List.getElem_map, cell]
  cases known : t.rows[k][i]? with
  | none => exact List.set_eq_of_length_le (List.getElem?_eq_none_iff.mp known)
  | some c =>
    obtain ⟨_, rfl⟩ := List.getElem?_eq_some_iff.mp known
    exact List.set_getElem_self ..

theorem setColumn_setColumn {others : List Cell} (wide : t.Wide)
    (count : cells.length = t.rows.length) (count' : others.length = t.rows.length) :
    (t.setColumn name cells).setColumn name others = t.setColumn name others := by
  have place := index?_setColumn_self t name cells
  cases found : t.index? name with
  | some i =>
    rw [found, Option.getD_some] at place
    rw [setColumn, place]
    simp only [setColumn, found]
    congr 1
    refine List.ext_getElem (by simp [count, count']) fun k _ _ => ?_
    simp
  | none =>
    rw [found, Option.getD_none] at place
    rw [setColumn, place]
    simp only [setColumn, found]
    congr 1
    refine List.ext_getElem (by simp [count, count']) fun k _ inside => ?_
    rw [List.length_zipWith, count', Nat.min_self] at inside
    have size := wide t.rows[k] (List.getElem_mem _)
    simp [← size]

theorem wide_ofColumns {names : List String} {columns : List (List Cell)}
    (count : columns.length = names.length) (rows : Nat) : (ofColumns names rows columns).Wide := by
  intro row member
  obtain ⟨i, -, rfl⟩ := List.mem_map.mp member
  rw [List.length_map, count]
  rfl

theorem column?_ofColumns {names : List String} (column : String → List Cell)
    (member : name ∈ names) {rows : Nat} (length : (column name).length = rows) :
    (ofColumns names rows (names.map column)).column? name = some (column name) := by
  obtain ⟨i, found⟩ : ∃ i, (ofColumns names rows (names.map column)).index? name = some i :=
    Option.ne_none_iff_exists'.mp fun absent => index?_eq_none.mp absent member
  have here : names[i]? = some name := getElem?_of_index? found
  rw [column?, found, Option.map_some, columnAt]
  refine congrArg some (List.ext_getElem (by simp [ofColumns, length]) fun k _ inside => ?_)
  simp [ofColumns, cell, here, inside]

end Table

-- What a cell becomes below cells of other tables: itself or a number of the column's kind.
inductive Cell.Carried : Cell → Cell → Prop
  | same (c : Cell) : Carried c c
  | number (c : Cell) : Carried c (.ofNumber? c.number?)
  | count (b : Bool) : Carried (.flag b) (.whole (if b then 1 else 0))

namespace Column

variable {columns : List (Nat × Option (List Cell))}

def joined (columns : List (Nat × Option (List Cell))) : List Cell :=
  columns.flatMap fun (count, cells) => cells.getD (List.replicate count .missing)

theorem exists_join (columns : List (Nat × Option (List Cell))) :
    ∃ convert : Cell → Cell, join columns = (joined columns).map convert ∧
      ∀ c, Cell.Carried c (convert c) := by
  unfold join
  dsimp only
  split_ifs with asGiven real
  · exact ⟨id, (List.map_id _).symm, .same⟩
  · exact ⟨fun c => .ofNumber? c.number?, rfl, .number⟩
  · refine ⟨_, rfl, fun c => ?_⟩
    cases c with
    | flag b => exact .count b
    | _ => exact .same _

theorem join_of_mixed {cells : List Cell} {count : Nat} (member : (count, some cells) ∈ columns)
    (mixed : kind cells = .mixed) : join columns = joined columns := by
  have some : (columns.filterMap fun (_, cells) => cells.map kind).contains .mixed = true := by
    rw [List.contains_iff_mem, List.mem_filterMap]
    exact ⟨_, member, congrArg Option.some mixed⟩
  unfold join
  dsimp only
  rw [some, Bool.true_or, Bool.true_or, if_pos rfl]
  rfl

end Column

namespace Table

theorem exists_position {β : Type} {parts : List β} {size : β → Nat} {k : Nat}
    (inside : k < (parts.map size).sum) : ∃ part ∈ parts, ∃ j < size part,
      ∀ {γ : Type} (f : β → List γ), (∀ part ∈ parts, (f part).length = size part) →
        (parts.flatMap f)[k]? = (f part)[j]? := by
  induction parts generalizing k with
  | nil => cases inside
  | cons part parts ih =>
    rw [List.map_cons, List.sum_cons] at inside
    by_cases here : k < size part
    · refine ⟨part, List.mem_cons_self, k, here, fun f sizes => ?_⟩
      rw [List.flatMap_cons, List.getElem?_append_left]
      rwa [sizes part List.mem_cons_self]
    · obtain ⟨other, member, j, within, same⟩ := ih (k := k - size part) (by omega)
      refine ⟨other, List.mem_cons_of_mem _ member, j, within, fun f sizes => ?_⟩
      obtain ⟨first, rest⟩ := List.forall_mem_cons.mp sizes
      rw [List.flatMap_cons, List.getElem?_append_right (by omega), first, same f rest]

variable {tables : List Table} {name : String}

theorem mem_names_concat : name ∈ (concat tables).names ↔ ∃ t ∈ tables, name ∈ t.names := by
  have fold (names : List String) :
      name ∈ tables.foldl (fun names t => names ++ t.names.filter (!names.contains ·)) names ↔
        name ∈ names ∨ ∃ t ∈ tables, name ∈ t.names := by
    induction tables generalizing names with
    | nil => simp
    | cons t tables ih =>
      rw [List.foldl_cons, ih, List.mem_append, List.mem_filter, List.exists_mem_cons_iff]
      simp only [List.contains_eq_mem, Bool.not_eq_true', decide_eq_false_iff_not]
      tauto
  exact (fold []).trans (by simp)

def columnsOf (tables : List Table) (name : String) : List (Nat × Option (List Cell)) :=
  tables.map fun t => (t.rows.length, t.column? name)

theorem joined_columnsOf (tables : List Table) (name : String) :
    Column.joined (columnsOf tables name) = tables.flatMap fun t =>
      (t.column? name).getD (List.replicate t.rows.length .missing) := by
  rw [Column.joined, columnsOf, List.flatMap_map]

theorem length_getD_column? (t : Table) (name : String) :
    ((t.column? name).getD (List.replicate t.rows.length .missing)).length = t.rows.length := by
  cases found : t.column? name with
  | none => exact List.length_replicate
  | some cells => exact length_of_column? found

theorem length_join_columnsOf (tables : List Table) (name : String) :
    (Column.join (columnsOf tables name)).length = (tables.flatMap (·.rows)).length := by
  obtain ⟨convert, whole, -⟩ := Column.exists_join (columnsOf tables name)
  rw [whole, List.length_map, joined_columnsOf, List.length_flatMap, List.length_flatMap]
  simp only [length_getD_column?]

theorem length_concat (tables : List Table) :
    (concat tables).rows.length = (tables.flatMap (·.rows)).length := by
  simp [concat, ofColumns]

theorem cellAt?_concat (member : name ∈ (concat tables).names) (k : Nat) :
    (concat tables).cellAt? name k = (Column.join (columnsOf tables name))[k]? := by
  have column : (concat tables).column? name = some (Column.join (columnsOf tables name)) :=
    column?_ofColumns (fun name => Column.join (columnsOf tables name)) member
      (length_join_columnsOf tables name)
  rw [cellAt?, column, Option.bind_some]

theorem exists_row {k : Nat} (inside : k < (concat tables).rows.length) :
    ∃ t ∈ tables, ∃ j < t.rows.length, ∀ name,
      (Column.joined (columnsOf tables name))[k]? = some ((t.cellAt? name j).getD .missing) := by
  rw [length_concat, List.length_flatMap] at inside
  obtain ⟨t, member, j, within, same⟩ := exists_position inside
  refine ⟨t, member, j, within, fun name => ?_⟩
  rw [joined_columnsOf, same _ fun t _ => length_getD_column? t name, cellAt?]
  cases found : t.column? name with
  | none => simp [within]
  | some cells =>
    have fits : j < cells.length := (length_of_column? found).symm ▸ within
    simp [fits]

end Table

end Passwise
