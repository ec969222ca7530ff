import Mathlib
import Passwise.Proofs.Running
import Passwise.Proofs.Tables

set_option autoImplicit false

namespace Passwise

namespace Cell

variable {c : Cell} {x : Float}

def reading? (c : Cell) : Option Float := (Report.numericCell c).toOption.bind number?

theorem reading?_whole {n : Int} (fits : (Float.ofInt n).isInf = false) :
    (whole n).reading? = some (Float.ofInt n) := by
  rw [reading?, Report.numericCell, Literal.floatOfInt]
  simp only [fits]
  rfl

theorem isNaN_of_number (number : c.number? = some x) : x.isNaN = false := by
  cases c with
  | missing | text | collection => cases number
  | flag b =>
    obtain rfl := Option.some.inj number
    cases b <;> rfl
  | whole n =>
    obtain rfl := Option.some.inj number
    exact Double.number_ofInt n
  | real y =>
    obtain ⟨defined, rfl⟩ := number?_real.mp number
    exact defined

theorem value?_of_number (number : c.number? = some x) (finite : x.isInf = false) :
    c.value?.isSome = true := by
  cases c with
  | missing | text | collection => cases number
  | flag | whole => rfl
  | real y =>
    obtain ⟨defined, rfl⟩ := number?_real.mp number
    rw [value?, decimal?, if_neg (Bool.not_eq_true _ ▸ defined), Double.ofFloat_eq_reading]
    change y.toModel.unpack.isInf = false at finite
    have known := Double.ne_notANumber defined
    generalize y.toModel.unpack = u at finite known
    cases u with
    | infinity => cases finite
    | notANumber => exact absurd rfl known
    | zero | finite => rfl

theorem rank?_of_number (number : c.number? = some x) (finite : x.isInf = false) :
    c.rank?.isSome = true := by
  obtain ⟨q, value⟩ := Option.isSome_iff_exists.mp (value?_of_number number finite)
  rw [rank?_of_numeral (isText_of_value value), value]
  rfl

theorem dropInfinite_of_number (number : c.number? = some x) (finite : x.isInf = false) :
    Report.dropInfinite c = c := by
  cases c with
  | real y =>
    obtain ⟨-, rfl⟩ := number?_real.mp number
    exact if_neg (Bool.not_eq_true _ ▸ finite)
  | _ => rfl

theorem isInf_of_value {q : ℚ} (value : (real x).value? = some q) : x.isInf = false := by
  obtain ⟨y, known, -⟩ := exists_finite value
  rw [decimal?] at known
  split_ifs at known
  have finite := Option.some.inj known
  rw [Double.ofFloat_eq_reading] at finite
  change x.toModel.unpack.isInf = false
  generalize x.toModel.unpack = u at finite
  cases u with
  | infinity => cases finite
  | _ => rfl

theorem dropInfinite_of_rank (known : c.rank?.isSome = true) : Report.dropInfinite c = c := by
  cases c with
  | real y =>
    obtain ⟨q, value⟩ := Option.isSome_iff_exists.mp ((Option.isSome_map ..).symm.trans known)
    exact if_neg (Bool.not_eq_true _ ▸ isInf_of_value value)
  | _ => rfl

theorem dropInfinite_idem (c : Cell) :
    Report.dropInfinite (Report.dropInfinite c) = Report.dropInfinite c := by
  cases c with
  | real x =>
    cases infinite : x.isInf <;> simp [Report.dropInfinite, infinite]
  | _ => rfl

end Cell

namespace Column

variable {cells : List Cell}

def OfOneKind (cells : List Cell) : Prop :=
  ∃ test ∈ [Cell.isFlag, isSigned, isUnsigned, isReal], ∀ c ∈ cells, test c = true

theorem OfOneKind.of_subset {part : List Cell} (one : OfOneKind cells) (inside : part ⊆ cells) :
    OfOneKind part := by
  obtain ⟨test, listed, holds⟩ := one
  exact ⟨test, listed, fun c member => holds c (inside member)⟩

theorem ofOneKind_of_kind (known : kind cells ≠ .mixed) : OfOneKind cells := by
  rw [kind] at known
  split_ifs at known with none flags signed unsigned reals
  · exact absurd rfl known
  · exact ⟨_, by simp, List.all_eq_true.mp flags⟩
  · exact ⟨_, by simp, List.all_eq_true.mp signed⟩
  · exact ⟨_, by simp, List.all_eq_true.mp unsigned⟩
  · exact ⟨_, by simp, List.all_eq_true.mp reals⟩
  · exact absurd rfl known

theorem kind_of_ofOneKind (one : OfOneKind cells) : cells = [] ∨ kind cells ≠ .mixed := by
  obtain ⟨test, listed, holds⟩ := one
  rw [← List.all_eq_true] at holds
  rw [kind]
  cases cells with
  | nil => exact .inl rfl
  | cons c rest =>
    simp only [List.mem_cons, List.not_mem_nil, or_false] at listed
    rcases listed with rfl | rfl | rfl | rfl <;> right <;> split_ifs <;> simp_all

theorem ofOneKind_toReals (cells : List Cell) : OfOneKind (toReals cells) := by
  refine ⟨isReal, by simp, fun c member => ?_⟩
  obtain ⟨c, -, rfl⟩ := List.mem_map.mp member
  cases c.number? <;> rfl

theorem OfOneKind.map_dropInfinite (one : OfOneKind cells) :
    OfOneKind (cells.map Report.dropInfinite) := by
  obtain ⟨test, listed, holds⟩ := one
  refine ⟨test, listed, fun c member => ?_⟩
  obtain ⟨c, inside, rfl⟩ := List.mem_map.mp member
  have known := holds c inside
  cases c with
  | real x =>
    simp only [List.mem_cons, List.not_mem_nil, or_false] at listed
    rw [Report.dropInfinite]
    split_ifs
    · rcases listed with rfl | rfl | rfl | rfl
      · cases known
      · cases known
      · cases known
      · rfl
    · exact known
  | _ => exact known

end Column

namespace Report

section Columns

open Column

variable {cells cells' : List Cell}

def onOneKind (numbers : List Cell) : List Cell :=
  match kind numbers with
  | .whole | .unsigned => numbers
  | _ => toReals numbers

theorem numericColumn_eq (cells : List Cell) : numericColumn cells =
    if kind cells = .mixed then onOneKind <$> cells.mapM numericCell else .ok cells := by
  rw [numericColumn]
  by_cases mixed : kind cells = .mixed
  · rw [mixed, if_neg (by decide), if_pos rfl]
    cases cells.mapM numericCell <;> rfl
  · rw [if_pos (bne_iff_ne.mpr mixed), if_neg mixed]
    rfl

theorem numericColumn_of_ofOneKind (one : OfOneKind cells) : numericColumn cells = .ok cells := by
  rcases kind_of_ofOneKind one with rfl | known
  · rfl
  · rw [numericColumn_eq, if_neg known]

theorem onOneKind_cases (numbers : List Cell) :
    (kind numbers ≠ .mixed ∧ onOneKind numbers = numbers) ∨
      onOneKind numbers = toReals numbers := by
  rw [onOneKind]
  split
  · rename_i known
    exact .inl ⟨by rw [known]; decide, rfl⟩
  · rename_i known
    exact .inl ⟨by rw [known]; decide, rfl⟩
  · exact .inr rfl

theorem ofOneKind_numericColumn (read : numericColumn cells = .ok cells') : OfOneKind cells' := by
  rw [numericColumn_eq] at read
  split_ifs at read with mixed
  · cases made : cells.mapM numericCell with
    | error => rw [made] at read; cases read
    | ok numbers =>
      rw [made] at read
      cases read
      rcases onOneKind_cases numbers with ⟨known, same⟩ | same
      · rw [same]
        exact ofOneKind_of_kind known
      · rw [same]
        exact ofOneKind_toReals numbers
  · cases read
    exact ofOneKind_of_kind mixed

theorem exists_numericColumn (doubles : ∀ n, Cell.whole n ∈ cells → (Float.ofInt n).isInf = false) :
    ∃ cells', numericColumn cells = .ok cells' := by
  have each : ∀ c ∈ cells, ∃ d, numericCell c = .ok d := by
    intro c member
    cases c with
    | whole n =>
      have fits : Literal.floatOfInt n = .ok (Float.ofInt n) :=
        if_neg (Bool.not_eq_true _ ▸ doubles n member)
      exact ⟨.whole n, by rw [numericCell, fits]; rfl⟩
    | text s =>
      rw [numericCell]
      split_ifs <;> exact ⟨_, rfl⟩
    | _ => exact ⟨_, rfl⟩
  rw [numericColumn_eq]
  split_ifs
  · obtain ⟨numbers, made, -⟩ := mapM_of_forall₂ (R := fun _ _ => True) (f := numericCell)
      (List.forall₂_same.mpr fun c member => (each c member).imp fun d known => ⟨known, trivial⟩)
    exact ⟨onOneKind numbers, by rw [made]; rfl⟩
  · exact ⟨cells, rfl⟩

theorem number_of_numericCell {c d : Cell} {x : Float} (made : numericCell c = .ok d)
    (known : c.reading? = some x) : d.number? = some x := by
  rw [Cell.reading?, made] at known
  exact known

theorem number_of_test {test : Cell → Bool} {c : Cell} {x : Float}
    (listed : test ∈ [Cell.isFlag, isSigned, isUnsigned, isReal]) (holds : test c = true)
    (known : c.reading? = some x) : c.number? = some x := by
  cases c with
  | flag b => cases b <;> exact known
  | missing => exact known
  | whole n =>
    rw [Cell.reading?, numericCell, Literal.floatOfInt] at known
    cases infinite : (Float.ofInt n).isInf <;> rw [infinite] at known
    · exact known
    · cases known
  | real y =>
    rw [Cell.reading?, numericCell] at known
    rw [Cell.number?]
    split_ifs at known ⊢ with undefined
    · cases known
    · exact (Cell.number?_real.mpr ⟨Bool.not_eq_true _ ▸ undefined, rfl⟩).symm.trans known
  | text | collection =>
    simp only [List.mem_cons, List.not_mem_nil, or_false] at listed
    rcases listed with rfl | rfl | rfl | rfl <;> cases holds

theorem number_of_numericColumn (read : numericColumn cells = .ok cells') :
    List.Forall₂ (fun c c' => ∀ x, c.reading? = some x → c'.number? = some x) cells cells' := by
  rw [numericColumn_eq] at read
  split_ifs at read with mixed
  · cases made : cells.mapM numericCell with
    | error => rw [made] at read; cases read
    | ok numbers =>
      rw [made] at read
      cases read
      have each := forall₂_of_mapM made
      rcases onOneKind_cases numbers with ⟨-, same⟩ | same
      · rw [same]
        exact each.imp fun c d made x known => number_of_numericCell made known
      · rw [same, toReals, List.forall₂_map_right_iff]
        refine each.imp fun c d made x known => ?_
        have number := number_of_numericCell made known
        rw [number]
        exact Cell.number?_real.mpr ⟨Cell.isNaN_of_number number, rfl⟩
  · cases read
    obtain ⟨test, listed, holds⟩ := ofOneKind_of_kind mixed
    exact List.forall₂_same.mpr fun c member x known => number_of_test listed (holds c member) known

end Columns

section Reading

variable {t u : Table} {name : String} {cells : List Cell} {names : List String}

def readColumn (t : Table) (name : String) : Except Error Table :=
  match t.column? name with
  | some cells => (t.setColumn name ·) <$> numericColumn cells
  | none => .ok t

def withoutInfinite (t : Table) : Table := { t with rows := t.rows.map (·.map dropInfinite) }

theorem coerce_eq (t : Table) :
    coerce t = withoutInfinite <$> numericColumns.foldlM readColumn t := by
  have steps : coerce t =
      (numericColumns.foldlM readColumn t >>= fun u => Except.ok (withoutInfinite u)) := rfl
  rw [steps]
  cases List.foldlM readColumn t numericColumns <;> rfl

theorem column?_withoutInfinite (t : Table) (name : String) :
    (withoutInfinite t).column? name = (t.column? name).map (·.map dropInfinite) := by
  rw [Table.column?, Table.column?, Option.map_map]
  refine congrArg (Option.map · (t.index? name)) (funext fun i => ?_)
  rw [Function.comp_apply, Table.columnAt, Table.columnAt, withoutInfinite, List.map_map,
    List.map_map]
  refine List.map_congr_left fun row _ => ?_
  simp only [Function.comp_apply, Table.cell, List.getElem?_map]
  cases row[i]? <;> rfl

structure Reads (names : List String) (t u : Table) : Prop where
  header : u.names = t.names
  wide : u.Wide
  length : u.rows.length = t.rows.length
  column : ∀ name cells, t.column? name = some cells → ∃ cells', u.column? name = some cells' ∧
    if name ∈ names then numericColumn cells = .ok cells' else cells' = cells

theorem exists_readColumn (wide : t.Wide) (doubles : ∀ cells, t.column? name = some cells →
    ∀ n, Cell.whole n ∈ cells → (Float.ofInt n).isInf = false) :
    ∃ u, readColumn t name = .ok u ∧ Reads [name] t u := by
  rw [readColumn]
  cases found : t.column? name with
  | none =>
    refine ⟨t, rfl, rfl, wide, rfl, fun other cells found' => ⟨cells, found', ?_⟩⟩
    rw [if_neg]
    intro member
    rw [List.mem_singleton.mp member, found] at found'
    cases found'
  | some cells =>
    obtain ⟨cells', read⟩ := exists_numericColumn (doubles cells found)
    have count : cells'.length = t.rows.length :=
      (number_of_numericColumn read).length_eq.symm.trans (Table.length_of_column? found)
    obtain ⟨i, known, -⟩ := Option.map_eq_some_iff.mp found
    refine ⟨t.setColumn name cells', by simp [read], Table.names_setColumn_of_some known cells',
      wide.setColumn, Table.length_setColumn count, fun other others found' => ?_⟩
    rcases eq_or_ne other name with rfl | apart
    · rw [found] at found'
      obtain rfl := Option.some.inj found'
      exact ⟨cells', Table.column?_setColumn_self wide count, by simp [read]⟩
    · refine ⟨others, ?_, by simp [apart]⟩
      rw [Table.column?_setColumn_of_ne wide count apart, found']

theorem exists_reads (wide : t.Wide) (distinct : names.Nodup)
    (doubles : ∀ name ∈ names, ∀ cells, t.column? name = some cells →
      ∀ n, Cell.whole n ∈ cells → (Float.ofInt n).isInf = false) :
    ∃ u, names.foldlM readColumn t = .ok u ∧ Reads names t u := by
  induction names generalizing t with
  | nil => exact ⟨t, rfl, rfl, wide, rfl, fun name cells found => ⟨cells, found, by simp⟩⟩
  | cons name rest ih =>
    obtain ⟨fresh, distinct⟩ := List.nodup_cons.mp distinct
    obtain ⟨v, step, first⟩ := exists_readColumn wide (doubles name (.head rest))
    have later : ∀ other ∈ rest, ∀ cells, v.column? other = some cells →
        ∀ n, Cell.whole n ∈ cells → (Float.ofInt n).isInf = false := by
      intro other member cells' found' n inside
      have apart : other ≠ name := fun same => fresh (same ▸ member)
      have listed := first.header ▸ Table.column?_isSome.mp (Option.isSome_of_mem found')
      obtain ⟨cells, found⟩ := Option.isSome_iff_exists.mp (Table.column?_isSome.mpr listed)
      obtain ⟨same, found'', read⟩ := first.column other cells found
      rw [if_neg (by simpa using apart)] at read
      rw [found', read] at found''
      obtain rfl := Option.some.inj found''
      exact doubles other (.tail name member) cells' found n inside
    obtain ⟨u, steps, others⟩ := ih first.wide distinct later
    refine ⟨u, by rw [List.foldlM_cons, step]; exact steps, others.header.trans first.header,
      others.wide, others.length.trans first.length, fun other cells found => ?_⟩
    obtain ⟨cells', found', read⟩ := first.column other cells found
    obtain ⟨cells'', found'', read'⟩ := others.column other cells' found'
    refine ⟨cells'', found'', ?_⟩
    rcases eq_or_ne other name with rfl | apart
    · rw [if_pos (List.mem_singleton_self other)] at read
      rw [if_neg fresh] at read'
      rw [if_pos (.head rest), read', read]
    · rw [if_neg (by simpa using apart)] at read
      simpa [apart, read] using read'

end Reading

end Report

end Passwise
