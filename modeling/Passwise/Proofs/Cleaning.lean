import Mathlib
import Passwise.Proofs.Readings

set_option autoImplicit false

namespace Passwise.Report

open Column

variable {t u : Table} {k : Keys} {passes : Nat} {rows : List (List Cell)}

def counted (u : Table) (k : Keys) (passes : Nat) : Table :=
  { u with rows := kept k u.rows }.setColumn "cum_passes"
    (sumsOf k passes (kind ((u.column? "passes").getD [])) (kept k u.rows))

theorem index?_of_keysOf (keys : keysOf u = .ok k) : u.index? "method" = some k.method ∧
    u.index? "seed" = some k.seed ∧ u.index? "iter" = some k.iteration := by
  have index {name : String} {i : Nat} (known : u.index name = .ok i) : u.index? name = some i := by
    rw [Table.index] at known
    split at known
    · cases known
      assumption
    · cases known
  obtain ⟨i, method, rest⟩ := bind_eq_ok.mp keys
  obtain ⟨j, seed, rest⟩ := bind_eq_ok.mp rest
  obtain ⟨l, iteration, whole⟩ := bind_eq_ok.mp rest
  cases whole
  exact ⟨index method, index seed, index iteration⟩

theorem keysOf_of_index? (method : u.index? "method" = some k.method)
    (seed : u.index? "seed" = some k.seed) (iteration : u.index? "iter" = some k.iteration) :
    keysOf u = .ok k := by
  rw [keysOf, Table.index, Table.index, Table.index, method, seed, iteration]
  rfl

theorem has_of_index? {name : String} {i : Nat} (found : u.index? name = some i) :
    u.has name = true :=
  List.contains_iff_mem.mpr (List.mem_of_getElem? (Table.getElem?_of_index? found))

theorem index_of_index? {name : String} {i : Nat} (found : u.index? name = some i) :
    u.index name = .ok i := by
  rw [Table.index, found]

theorem clean_eq (read : coerce t = .ok u) (keys : keysOf u = .ok k)
    (found : u.index? "passes" = some passes) : clean t = .ok (counted u k passes) := by
  have iteration := has_of_index? (index?_of_keysOf keys).2.2
  have given : Table.has { u with rows := kept k u.rows } "passes" = true := has_of_index? found
  have place : Table.index { u with rows := kept k u.rows } "passes" = .ok passes :=
    index_of_index? found
  rw [kept] at given place
  rw [clean, read, ok_bind, if_neg (by rw [iteration]; decide)]
  change (keysOf u >>= fun k => _) = _
  rw [keys, ok_bind]
  simp only [given, if_true, place, ok_bind]
  rfl

structure History (t : Table) : Prop where
  wide : t.Wide
  method : ∃ cells, t.column? "method" = some cells ∧ ∀ c ∈ cells, c.rank?.isSome = true
  seed : ∃ cells, t.column? "seed" = some cells ∧ ∀ c ∈ cells, c.rank?.isSome = true
  iteration : ∃ cells, t.column? "iter" = some cells ∧
    ∀ c ∈ cells, ∃ x, c.reading? = some x ∧ x.isInf = false
  passes : ∃ cells, t.column? "passes" = some cells ∧
    ∀ c ∈ cells, ∃ x, c.reading? = some x ∧ x.isInf = false ∧ 0 ≤ x
  doubles : ∀ name ∈ "method" :: "seed" :: numericColumns, ∀ cells, t.column? name = some cells →
    ∀ n, Cell.whole n ∈ cells → (Float.ofInt n).isInf = false

structure Ready (u : Table) (k : Keys) (passes : Nat) : Prop where
  wide : u.Wide
  keys : keysOf u = .ok k
  place : u.index? "passes" = some passes
  ranked : ∀ row ∈ u.rows, k.Ranked row
  labels : ∀ row ∈ u.rows, ∀ n, Table.cell row k.method = .whole n ∨
    Table.cell row k.seed = .whole n → (Float.ofInt n).isInf = false
  finite : ∀ row ∈ u.rows, ∃ x, (Table.cell row k.iteration).number? = some x ∧ x.isInf = false
  counts : ∀ row ∈ u.rows, (Table.cell row passes).IsCount
  kinds : ∀ name ∈ numericColumns, ∀ cells, u.column? name = some cells → OfOneKind cells
  plain : ∀ row ∈ u.rows, row.map dropInfinite = row

theorem wide_withoutInfinite (wide : t.Wide) : (withoutInfinite t).Wide := by
  intro row member
  obtain ⟨row, inside, rfl⟩ := List.mem_map.mp member
  rw [List.length_map]
  exact wide row inside

section Columns

variable {v : Table} {name : String} {cells : List Cell} (reads : Reads numericColumns t v)

include reads

theorem Reads.exists_label (found : t.column? name = some cells) (label : name ∉ numericColumns)
    (known : ∀ c ∈ cells, c.rank?.isSome = true) : ∃ i, (withoutInfinite v).index? name = some i ∧
      ∀ row ∈ (withoutInfinite v).rows, Table.cell row i ∈ cells := by
  obtain ⟨same, found', read⟩ := reads.column name cells found
  rw [if_neg label] at read
  subst read
  have column := column?_withoutInfinite v name
  rw [found', Option.map_some] at column
  obtain ⟨i, place, whole⟩ := Option.map_eq_some_iff.mp column
  refine ⟨i, place, fun row member => ?_⟩
  have inside : Table.cell row i ∈ same.map dropInfinite :=
    whole ▸ List.mem_map_of_mem (f := (Table.cell · i)) member
  obtain ⟨c, member', same⟩ := List.mem_map.mp inside
  rwa [← same, Cell.dropInfinite_of_rank (known c member')]

theorem Reads.exists_number {P : Float → Prop} (found : t.column? name = some cells)
    (numeric : name ∈ numericColumns)
    (known : ∀ c ∈ cells, ∃ x, c.reading? = some x ∧ x.isInf = false ∧ P x) :
    ∃ i, (withoutInfinite v).index? name = some i ∧ ∀ row ∈ (withoutInfinite v).rows,
      ∃ x, (Table.cell row i).number? = some x ∧ x.isInf = false ∧ P x := by
  obtain ⟨numbers, found', read⟩ := reads.column name cells found
  rw [if_pos numeric] at read
  have column := column?_withoutInfinite v name
  rw [found', Option.map_some] at column
  obtain ⟨i, place, whole⟩ := Option.map_eq_some_iff.mp column
  refine ⟨i, place, fun row member => ?_⟩
  have inside : Table.cell row i ∈ numbers.map dropInfinite :=
    whole ▸ List.mem_map_of_mem (f := (Table.cell · i)) member
  obtain ⟨d, member', same⟩ := List.mem_map.mp inside
  obtain ⟨c, given, keeps⟩ := exists_of_forall₂ (number_of_numericColumn read) member'
  obtain ⟨x, reading, finite, holds⟩ := known c given
  have number := keeps x reading
  rw [← same, Cell.dropInfinite_of_number number finite]
  exact ⟨x, number, finite, holds⟩

theorem Reads.ofOneKind (numeric : name ∈ numericColumns)
    (found : (withoutInfinite v).column? name = some cells) : OfOneKind cells := by
  rw [column?_withoutInfinite] at found
  obtain ⟨numbers, found', rfl⟩ := Option.map_eq_some_iff.mp found
  have listed := reads.header ▸ Table.column?_isSome.mp (Option.isSome_of_mem found')
  obtain ⟨given, column⟩ := Option.isSome_iff_exists.mp (Table.column?_isSome.mpr listed)
  obtain ⟨numbers', found'', read⟩ := reads.column name given column
  rw [if_pos numeric] at read
  obtain rfl := Option.some.inj (found'.symm.trans found'')
  exact (ofOneKind_numericColumn read).map_dropInfinite

end Columns

theorem History.exists_ready (history : History t) : ∃ u k passes, coerce t = .ok u ∧
    u.names = t.names ∧ u.rows.length = t.rows.length ∧ Ready u k passes := by
  obtain ⟨v, read, reads⟩ := exists_reads history.wide (by decide)
    fun name listed => history.doubles name (.tail _ (.tail _ listed))
  obtain ⟨methods, found, known⟩ := history.method
  have small := history.doubles "method" (.head _) methods found
  obtain ⟨i, method, among⟩ := reads.exists_label found (by decide) known
  obtain ⟨seeds, found', known'⟩ := history.seed
  have small' := history.doubles "seed" (.tail _ (.head _)) seeds found'
  obtain ⟨j, seed, among'⟩ := reads.exists_label found' (by decide) known'
  obtain ⟨iterations, found, finite⟩ := history.iteration
  obtain ⟨l, iteration, iterations⟩ := reads.exists_number (P := fun _ => True) found (by decide)
    fun c member => (finite c member).imp fun x both => ⟨both.1, both.2, trivial⟩
  obtain ⟨counts, found, above⟩ := history.passes
  obtain ⟨p, place, counts⟩ := reads.exists_number found (by decide) above
  refine ⟨withoutInfinite v, ⟨i, j, l⟩, p, by rw [coerce_eq, read]; rfl, reads.header,
    (List.length_map ..).trans reads.length, ?_⟩
  constructor
  case wide => exact wide_withoutInfinite reads.wide
  case keys => exact keysOf_of_index? method seed iteration
  case place => exact place
  case ranked =>
    intro row member
    obtain ⟨x, number, finite, -⟩ := iterations row member
    exact ⟨known _ (among row member), known' _ (among' row member),
      Cell.rank?_of_number number finite⟩
  case labels =>
    rintro row member n (same | same)
    · exact small n (same ▸ among row member)
    · exact small' n (same ▸ among' row member)
  case finite =>
    intro row member
    obtain ⟨x, number, finite, -⟩ := iterations row member
    exact ⟨x, number, finite⟩
  case counts =>
    intro row member
    obtain ⟨x, number, -, above⟩ := counts row member
    exact ⟨x, number, above⟩
  case kinds => exact fun name numeric cells found => reads.ofOneKind numeric found
  case plain =>
    intro row member
    obtain ⟨given, -, rfl⟩ := List.mem_map.mp member
    rw [List.map_map]
    exact congrArg (List.map · given) (funext Cell.dropInfinite_idem)

section Views

variable {rows' : List (List Cell)} {sums cells : List Cell} {i : Nat}

structure View where
  method : Cell
  seed : Cell
  iteration : Cell
  passes : Cell

def View.run (v : View) : Keys.RunKey := toLex (v.method.rank, v.seed.rank)

def View.key (v : View) : Keys.Key := toLex (v.run, v.iteration.rank)

def view (k : Keys) (passes : Nat) (row : List Cell) : View :=
  ⟨Table.cell row k.method, Table.cell row k.seed, Table.cell row k.iteration,
    Table.cell row passes⟩

def Alike (k : Keys) (passes : Nat) (rows rows' : List (List Cell)) : Prop :=
  rows.map (view k passes) = rows'.map (view k passes)

theorem Alike.map {β : Type} (same : Alike k passes rows rows')
    (f : View → β) :
    rows.map (fun row => f (view k passes row)) = rows'.map fun row => f (view k passes row) := by
  have mapped := congrArg (List.map f) same
  rwa [List.map_map, List.map_map] at mapped

theorem Alike.forall {P : View → Prop} (same : Alike k passes rows rows')
    (each : ∀ row ∈ rows, P (view k passes row)) : ∀ row ∈ rows', P (view k passes row) := by
  rw [← List.forall_mem_map (P := P)] at each ⊢
  rwa [← same]

theorem Alike.ranked (same : Alike k passes rows rows') (ranked : ∀ row ∈ rows, k.Ranked row) :
    ∀ row ∈ rows', k.Ranked row := by
  have each := same.forall
    (P := fun v => v.method.rank?.isSome = true ∧ v.seed.rank?.isSome = true ∧
      v.iteration.rank?.isSome = true)
    fun row member => ⟨(ranked row member).method, (ranked row member).seed,
      (ranked row member).iteration⟩
  exact fun row member => ⟨(each row member).1, (each row member).2.1, (each row member).2.2⟩

theorem Alike.ordered (same : Alike k passes rows rows')
    (ordered : rows.Pairwise fun a b => k.key a < k.key b) :
    rows'.Pairwise fun a b => k.key a < k.key b := by
  have keys : rows.map k.key = rows'.map k.key := same.map View.key
  rw [← List.pairwise_map (f := k.key) (R := (· < ·))] at ordered ⊢
  rwa [← keys]

theorem Alike.column (same : Alike k passes rows rows') :
    rows.map (Table.cell · passes) = rows'.map (Table.cell · passes) := same.map View.passes

theorem passes_of_run (k : Keys) (passes : Nat) (rows : List (List Cell)) (run : Keys.RunKey) :
    (rows.filter fun row => decide (k.run row = run)).map (Table.cell · passes) =
      ((rows.map (view k passes)).filter fun v => decide (v.run = run)).map View.passes := by
  rw [List.filter_map, List.map_map]
  rfl

theorem Alike.accumulated (same : Alike k passes rows rows')
    (accumulated : Accumulated k passes rows sums) : Accumulated k passes rows' sums := by
  have count : rows.length = rows'.length := by simpa using congrArg List.length same
  refine ⟨accumulated.length.trans count, fun i row' known => ?_⟩
  have inside := List.getElem?_eq_some_iff.mp known
  obtain ⟨bound, -⟩ := inside
  have found : rows[i]? = some rows[i] := List.getElem?_eq_getElem (count ▸ bound)
  have views : (rows.map (view k passes))[i]? = (rows'.map (view k passes))[i]? := by rw [same]
  rw [List.getElem?_map, List.getElem?_map, found, known] at views
  have runs : k.run rows[i] = k.run row' :=
    congrArg View.run (Option.some.inj views)
  rw [accumulated.sum i _ found, upTo, upTo, passes_of_run, passes_of_run, List.map_take,
    List.map_take, same, runs]

theorem map_view (k : Keys) (passes : Nat) (t : Table) : t.rows.map (view k passes) =
    ((t.columnAt k.method).zip ((t.columnAt k.seed).zip
      ((t.columnAt k.iteration).zip (t.columnAt passes)))).map
        fun v => ⟨v.1, v.2.1, v.2.2.1, v.2.2.2⟩ := by
  simp only [Table.columnAt, List.zip_map', List.map_map]
  rfl

theorem alike_setColumn (wide : t.Wide) (keys : keysOf t = .ok k)
    (place : t.index? "passes" = some passes) (count : cells.length = t.rows.length) :
    Alike k passes t.rows (t.setColumn "cum_passes" cells).rows := by
  obtain ⟨method, seed, iteration⟩ := index?_of_keysOf keys
  have column {name : String} {i : Nat} (found : t.index? name = some i)
      (apart : name ≠ "cum_passes") :
      (t.setColumn "cum_passes" cells).columnAt i = t.columnAt i := by
    have same := Table.column?_setColumn_of_ne wide count apart
    rw [Table.column?, Table.column?, Table.index?_setColumn_of_ne t apart, found] at same
    exact Option.some.inj same
  rw [Alike, map_view, map_view, column method (by decide), column seed (by decide),
    column iteration (by decide), column place (by decide)]

end Views

section Sums

variable {cells : List Cell}

theorem exists_nat_of_isCount {n : Int} (count : (Cell.whole n).IsCount) : ∃ m : Nat, n = m := by
  obtain ⟨x, known, above⟩ := count
  obtain rfl := Option.some.inj known
  refine Int.eq_ofNat_of_zero_le ?_
  by_contra below
  have order := Double.ofInt_mono (show n ≤ -1 by omega)
  exact absurd (Double.le_trans above order) (by decide)

theorem countable_kind (one : OfOneKind cells) (counts : ∀ c ∈ cells, c.IsCount) :
    Countable (kind cells) cells := by
  have wholes (c : Cell) (member : c ∈ cells) (whole : c.isWhole = true) :
      ∃ n : Nat, c = .whole n := by
    cases c with
    | whole n =>
      obtain ⟨m, rfl⟩ := exists_nat_of_isCount (counts _ member)
      exact ⟨m, rfl⟩
    | _ => cases whole
  have broken (test : Cell → Bool) (apart : ∀ n, test (.whole n) = false)
      (holds : ∀ c ∈ cells, test c = true) : ∀ c ∈ cells, c.isWhole = false := by
    intro c member
    cases c with
    | whole n => exact absurd ((apart n).symm.trans (holds _ member)) Bool.false_ne_true
    | _ => rfl
  have known := kind_of_ofOneKind one
  rw [kind] at known ⊢
  split_ifs at known ⊢ with none flags signed unsigned reals
  · obtain rfl := List.isEmpty_iff.mp none
    exact .rounded (by decide) (by decide) (List.forall_mem_nil _) (List.forall_mem_nil _)
  · exact .rounded (by decide) (by decide)
      (broken Cell.isFlag (fun _ => rfl) (List.all_eq_true.mp flags)) counts
  · refine .of_wholes (.inl rfl) fun c member => wholes c member ?_
    have holds := List.all_eq_true.mp signed c member
    cases c <;> first | rfl | cases holds
  · refine .of_wholes (.inr rfl) fun c member => wholes c member ?_
    have holds := List.all_eq_true.mp unsigned c member
    cases c <;> first | rfl | cases holds
  · exact .rounded (by decide) (by decide)
      (broken isReal (fun _ => rfl) (List.all_eq_true.mp reals)) counts
  · obtain rfl := known.resolve_right (absurd rfl)
    exact absurd rfl none

theorem accumulated_kept (ranked : ∀ row ∈ rows, k.Ranked row)
    (ordered : rows.Pairwise fun a b => k.key a < k.key b) (one : OfOneKind cells)
    (counts : ∀ c ∈ cells, c.IsCount) (inside : rows.map (Table.cell · passes) ⊆ cells)
    (fits : ∀ run, Cell.wholeSum ((rows.filter fun row => decide (k.run row = run)).map
      (Table.cell · passes)) < 2 ^ 63) :
    Accumulated k passes rows (sumsOf k passes (kind cells) rows) := by
  refine accumulated_sumsOf ranked (ordered.imp fun {a b} below => ?_)
    ((countable_kind one counts).of_subset inside) fits
  exact Prod.Lex.monotone_fst _ _ below.le

end Sums

-- Each row counted once, also where its key comes again.
def Fitting (u : Table) (k : Keys) (passes : Nat) : Prop :=
  ∀ run, Cell.wholeSum (((latest k.key u.rows).filter fun row => decide (k.run row = run)).map
    (Table.cell · passes)) < 2 ^ 63

structure Cleaned (u : Table) (k : Keys) (passes : Nat) (rows : List (List Cell))
    (sums : List Cell) : Prop where
  last : ∀ row, row ∈ rows ↔ ∃ before after, u.rows = before ++ row :: after ∧
    ∀ later ∈ after, k.key later ≠ k.key row
  every : ∀ row ∈ u.rows, ∃ last ∈ rows, k.key last = k.key row
  ordered : rows.Pairwise fun a b => k.key a < k.key b
  accumulated : Accumulated k passes rows sums

section Kept

variable (ready : Ready u k passes)

include ready

theorem Ready.kept_subset : kept k u.rows ⊆ u.rows := fun _ => mem_of_mem_kept ready.ranked

theorem Ready.column : u.column? "passes" = some (u.columnAt passes) := by
  rw [Table.column?, ready.place, Option.map_some]

theorem Ready.columnAt_kept :
    (kept k u.rows).map (Table.cell · passes) ⊆ u.columnAt passes :=
  List.map_subset _ ready.kept_subset

theorem Ready.ofOneKind : OfOneKind (u.columnAt passes) :=
  ready.kinds "passes" (by decide) _ ready.column

theorem Ready.isCount {c : Cell} (member : c ∈ u.columnAt passes) : c.IsCount := by
  obtain ⟨row, inside, rfl⟩ := List.mem_map.mp member
  exact ready.counts row inside

theorem Ready.fitting_kept (fits : Fitting u k passes) (run : Keys.RunKey) :
    Cell.wholeSum (((kept k u.rows).filter fun row => decide (k.run row = run)).map
      (Table.cell · passes)) < 2 ^ 63 := by
  have same := (((latest_mergeSort_perm k.key u.rows).filter fun row =>
    decide (k.run row = run)).map (Table.cell · passes)).map fun c => c.whole?.getD 0
  rw [kept_eq ready.ranked, Cell.wholeSum, same.sum_eq]
  exact fits run

theorem Ready.cleaned (fits : Fitting u k passes) : Cleaned u k passes (kept k u.rows)
    (sumsOf k passes (kind ((u.column? "passes").getD [])) (kept k u.rows)) where
  last row := mem_kept ready.ranked
  every row := exists_kept ready.ranked
  ordered := pairwise_kept ready.ranked
  accumulated := by
    rw [ready.column, Option.getD_some]
    exact accumulated_kept (fun row member => ready.ranked row (ready.kept_subset member))
      (pairwise_kept ready.ranked) ready.ofOneKind (fun c => ready.isCount) ready.columnAt_kept
      (ready.fitting_kept fits)

end Kept

theorem withoutInfinite_setColumn (t : Table) (name : String) (cells : List Cell) :
    withoutInfinite (t.setColumn name cells) =
      (withoutInfinite t).setColumn name (cells.map dropInfinite) := by
  have place : (withoutInfinite t).index? name = t.index? name := rfl
  rw [Table.setColumn, Table.setColumn, place]
  cases t.index? name <;>
    simp [withoutInfinite, List.map_zipWith, List.zipWith_map, List.map_set]

theorem coerce_of_kinds (kinds : ∀ name ∈ numericColumns, ∀ cells, t.column? name = some cells →
    OfOneKind cells) : coerce t = .ok (withoutInfinite t) := by
  have steps (names : List String) (listed : names ⊆ numericColumns) :
      names.foldlM readColumn t = .ok t := by
    induction names with
    | nil => rfl
    | cons name rest ih =>
      have step : readColumn t name = .ok t := by
        rw [readColumn]
        cases found : t.column? name with
        | none => rfl
        | some cells =>
          simp only [numericColumn_of_ofOneKind (kinds name (listed (.head rest)) cells found),
            map_ok, Table.setColumn_self found]
      rw [List.foldlM_cons, step, ok_bind]
      exact ih (List.subset_of_cons_subset listed)
  rw [coerce_eq, steps numericColumns (List.Subset.refl _)]
  rfl

theorem Ready.of_subset (ready : Ready u k passes) (inside : rows ⊆ u.rows) :
    Ready { u with rows := rows } k passes where
  wide row member := ready.wide row (inside member)
  keys := ready.keys
  place := ready.place
  ranked row member := ready.ranked row (inside member)
  labels row member := ready.labels row (inside member)
  finite row member := ready.finite row (inside member)
  counts row member := ready.counts row (inside member)
  kinds name numeric cells found := by
    obtain ⟨i, place, rfl⟩ := Option.map_eq_some_iff.mp found
    have column : u.column? name = some (u.columnAt i) := congrArg (Option.map u.columnAt) place
    exact (ready.kinds name numeric _ column).of_subset (List.map_subset _ inside)
  plain row member := ready.plain row (inside member)

section Ordered

variable {sums cells : List Cell} (ready : Ready u k passes)
  (ordered : u.rows.Pairwise fun a b => k.key a < k.key b)
  (fits : ∀ run, Cell.wholeSum ((u.rows.filter fun row => decide (k.run row = run)).map
    (Table.cell · passes)) < 2 ^ 63)
  (accumulated : Accumulated k passes u.rows sums)

include ready ordered fits accumulated

theorem Ready.counted_setColumn (count : cells.length = u.rows.length) :
    counted (u.setColumn "cum_passes" cells) k passes = u.setColumn "cum_passes" sums := by
  have alike := alike_setColumn ready.wide ready.keys ready.place count
  have stay := kept_of_pairwise (alike.ranked ready.ranked) (alike.ordered ordered)
  have column : (u.setColumn "cum_passes" cells).column? "passes" = some (u.columnAt passes) := by
    rw [Table.column?_setColumn_of_ne ready.wide count (by decide), ready.column]
  have again := accumulated_kept (alike.ranked ready.ranked) (alike.ordered ordered)
    ready.ofOneKind (fun c => ready.isCount) (fun c => (congrArg (c ∈ ·) alike.column).mpr)
    fun run => by
      rw [passes_of_run, ← alike, ← passes_of_run]
      exact fits run
  rw [counted, stay, column, Option.getD_some, again.unique (alike.accumulated accumulated)]
  exact Table.setColumn_setColumn ready.wide count accumulated.length

theorem Ready.clean_setColumn :
    clean (u.setColumn "cum_passes" sums) = .ok (u.setColumn "cum_passes" sums) := by
  have count := accumulated.length
  have plain : withoutInfinite u = u := by
    rw [withoutInfinite, List.map_congr_left ready.plain, List.map_id']
  -- Where sums are infinite they are missing for a while, and then they are set again.
  have read : coerce (u.setColumn "cum_passes" sums) =
      .ok (u.setColumn "cum_passes" (sums.map dropInfinite)) := by
    rw [coerce_of_kinds, withoutInfinite_setColumn, plain]
    intro name numeric cells found
    rw [Table.column?_setColumn_of_ne ready.wide count] at found
    · exact ready.kinds name numeric cells found
    · rintro rfl
      exact absurd numeric (by decide)
  have elsewhere {name : String} (apart : name ≠ "cum_passes") :=
    Table.index?_setColumn_of_ne u apart (sums.map dropInfinite)
  obtain ⟨method, seed, iteration⟩ := index?_of_keysOf ready.keys
  rw [clean_eq read (keysOf_of_index? ((elsewhere (by decide)).trans method)
    ((elsewhere (by decide)).trans seed) ((elsewhere (by decide)).trans iteration))
    ((elsewhere (by decide)).trans ready.place)]
  exact congrArg Except.ok
    (ready.counted_setColumn ordered fits accumulated ((List.length_map _).trans count))

end Ordered

theorem Ready.clean_counted (ready : Ready u k passes) (fits : Fitting u k passes) :
    clean (counted u k passes) = .ok (counted u k passes) :=
  (ready.of_subset ready.kept_subset).clean_setColumn (pairwise_kept ready.ranked)
    (ready.fitting_kept fits) (ready.cleaned fits).accumulated

end Passwise.Report
