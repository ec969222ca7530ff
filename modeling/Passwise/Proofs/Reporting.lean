import Mathlib
import Passwise.Proofs.Targets

set_option autoImplicit false

namespace Passwise.Report

open Column

variable {t u c : Table} {k : Keys} {passes loss cum i : Nat} {a b : Float}
  {runs : List Keys.RunKey} {run : List (List Cell)} {r : Keys.RunKey}

def rowsOf (c : Table) (k : Keys) (r : Keys.RunKey) : List (List Cell) :=
  c.rows.filter fun row => decide (k.run row = r)

structure Runs (c : Table) (k : Keys) (runs : List Keys.RunKey) : Prop where
  ordered : runs.Pairwise (· < ·)
  complete : ∀ r, r ∈ runs ↔ ∃ row ∈ c.rows, k.run row = r

structure Reached (c : Table) (k : Keys) (loss cum : Nat) (runs : List Keys.RunKey) (a : Float)
    (t : Table) : Prop where
  length : t.rows.length = runs.length
  passes : ∀ i r, runs[i]? = some r → t.numberAt? "passes_to_target" i =
    ((rowsOf c k r).find? (reaches loss a)).bind fun row => (Table.cell row cum).number?
  iteration : ∀ i r, runs[i]? = some r → t.numberAt? "iter_to_target" i =
    ((rowsOf c k r).find? (reaches loss a)).bind
      fun row => (wholePart (Table.cell row k.iteration)).number?

structure Ended (c : Table) (k : Keys) (cum : Nat) (runs : List Keys.RunKey) (t : Table) :
    Prop where
  length : t.rows.length = runs.length
  passes : ∀ i r, runs[i]? = some r → t.numberAt? "total_passes" i =
    (rowsOf c k r).getLast?.bind fun row => (Table.cell row cum).number?
  iteration : ∀ i r, runs[i]? = some r → t.numberAt? "final_iter" i =
    (rowsOf c k r).getLast?.bind fun row => (wholePart (Table.cell row k.iteration)).number?

structure Consistent (first second ends : Table) : Prop where
  labels : ∀ name ∈ ["method", "seed"], second.column? name = first.column? name ∧
    ends.column? name = first.column? name
  reached : ∀ i x, first.numberAt? "passes_to_target" i = some x → ∃ m n y z f,
    first.numberAt? "iter_to_target" i = some m ∧
      second.numberAt? "passes_to_target" i = some y ∧
      second.numberAt? "iter_to_target" i = some n ∧
      ends.numberAt? "total_passes" i = some z ∧ ends.numberAt? "final_iter" i = some f ∧
      y ≤ x ∧ n ≤ m ∧ x ≤ z ∧ m ≤ f

theorem filter_flatten {gs : List (List (List Cell))}
    (one : ∀ g ∈ gs, ∀ a ∈ g, ∀ b ∈ g, k.run a = k.run b)
    (apart : gs.Pairwise fun g h => ∀ a ∈ g, ∀ b ∈ h, k.run a < k.run b) (member : run ∈ gs)
    (own : ∃ row ∈ run, k.run row = r) :
    gs.flatten.filter (fun row => decide (k.run row = r)) = run := by
  obtain ⟨row, inside, rfl⟩ := own
  induction gs with
  | nil => cases member
  | cons g rest ih =>
    obtain ⟨later, apart⟩ := List.pairwise_cons.mp apart
    rw [List.flatten_cons, List.filter_append]
    rcases List.mem_cons.mp member with rfl | member
    · have whole : run.filter (fun row' => decide (k.run row' = k.run row)) = run :=
        List.filter_eq_self.mpr fun b right =>
          decide_eq_true (one run (.head rest) b right row inside)
      have none : rest.flatten.filter (fun row' => decide (k.run row' = k.run row)) = [] := by
        refine List.filter_eq_nil_iff.mpr fun b right same => ?_
        obtain ⟨h, member', within⟩ := List.mem_flatten.mp right
        exact (later h member' row inside b within).ne (of_decide_eq_true same).symm
      rw [whole, none, List.append_nil]
    · have none : g.filter (fun row' => decide (k.run row' = k.run row)) = [] :=
        List.filter_eq_nil_iff.mpr fun b right same =>
          (later run member b right row inside).ne (of_decide_eq_true same)
      rw [none, List.nil_append]
      exact ih (fun h member => one h (.tail g member)) apart member

section Tidy

variable (tidy : Tidy c k cum)

include tidy

theorem Tidy.ordered_runs : c.rows.Pairwise fun a b => k.run a ≤ k.run b :=
  tidy.ordered.imp fun {a b} below => Prod.Lex.monotone_fst (k.key a) (k.key b) below.le

theorem Tidy.rowsOf_eq {row : List Cell} (member : run ∈ groups k.sameRun c.rows)
    (inside : row ∈ run) : rowsOf c k (k.run row) = run := by
  have flat := filter_flatten (fun run member => run_eq_of_mem_groups tidy.ranked member)
    (pairwise_groups tidy.ranked tidy.ordered_runs) member ⟨row, inside, rfl⟩
  rwa [flatten_groups] at flat

theorem Tidy.exists_runs : ∃ runs : List Keys.RunKey, Runs c k runs ∧
    runs.length = (groups k.sameRun c.rows).length ∧
    ∀ (i : Nat) r, runs[i]? = some r →
      (groups k.sameRun c.rows)[i]? = some (rowsOf c k r) := by
  have first {run : List (List Cell)} (member : run ∈ groups k.sameRun c.rows) :
      run.headD [] ∈ run := by
    cases run with
    | nil => exact absurd rfl (ne_nil_of_mem_groups member)
    | cons row rest => exact .head rest
  refine ⟨(groups k.sameRun c.rows).map fun run => k.run (run.headD []), ⟨?_, fun r => ?_⟩,
    List.length_map _, fun i r known => ?_⟩
  · rw [List.pairwise_map]
    exact (pairwise_groups tidy.ranked tidy.ordered_runs).imp_of_mem
      fun {g h} left right apart => apart _ (first left) _ (first right)
  · constructor
    · intro listed
      obtain ⟨run, member, rfl⟩ := List.mem_map.mp listed
      exact ⟨_, mem_of_mem_groups member (first member), rfl⟩
    · rintro ⟨row, listed, rfl⟩
      rw [← flatten_groups k.sameRun c.rows] at listed
      obtain ⟨run, member, inside⟩ := List.mem_flatten.mp listed
      exact List.mem_map.mpr ⟨run, member,
        run_eq_of_mem_groups tidy.ranked member _ (first member) row inside⟩
  · rw [List.getElem?_map] at known
    obtain ⟨run, found, rfl⟩ := Option.map_eq_some_iff.mp known
    have member := List.mem_of_getElem? found
    rw [found, tidy.rowsOf_eq member (first member)]

end Tidy

section Made

theorem reached_of_made (made : Table.ofRecords ((groups k.sameRun c.rows).map fun run =>
      reachedRecord k loss cum a (labelled c k run)) = .ok t)
    (count : runs.length = (groups k.sameRun c.rows).length)
    (each : ∀ (i : Nat) r, runs[i]? = some r →
      (groups k.sameRun c.rows)[i]? = some (rowsOf c k r)) :
    Reached c k loss cum runs a t where
  length := (Table.length_ofRecords made).trans ((List.length_map _).trans count.symm)
  passes i r known := (numbers_reached made (each i r known)).1
  iteration i r known := (numbers_reached made (each i r known)).2

theorem bind_getLast (given : run ≠ []) {β : Type} (f : List Cell → Option β) :
    run.getLast?.bind f = f (run.getLast?.getD []) := by
  rw [List.getLast?_eq_getLast_of_ne_nil given, Option.bind_some, Option.getD_some]

theorem ended_of_made (made : Table.ofRecords ((groups k.sameRun c.rows).map fun run =>
      endRecord k loss cum (labelled c k run)) = .ok t)
    (count : runs.length = (groups k.sameRun c.rows).length)
    (each : ∀ (i : Nat) r, runs[i]? = some r →
      (groups k.sameRun c.rows)[i]? = some (rowsOf c k r)) :
    Ended c k cum runs t where
  length := (Table.length_ofRecords made).trans ((List.length_map _).trans count.symm)
  passes i r known := by
    have found := each i r known
    rw [bind_getLast (ne_nil_of_mem_groups (List.mem_of_getElem? found))]
    exact (numbers_end made found).1
  iteration i r known := by
    have found := each i r known
    rw [bind_getLast (ne_nil_of_mem_groups (List.mem_of_getElem? found))]
    exact (numbers_end made found).2

theorem reaches_mono (below : a ≤ b) {row : List Cell} (met : reaches loss a row = true) :
    reaches loss b row = true := by
  rw [reaches, Option.any_eq_true] at met ⊢
  obtain ⟨x, known, under⟩ := met
  exact ⟨x, known, decide_eq_true (Double.le_trans (of_decide_eq_true under) below)⟩

variable {ta tb e : Table} (made : Table.ofRecords ((groups k.sameRun c.rows).map fun run =>
      reachedRecord k loss cum a (labelled c k run)) = .ok ta)
    (made' : Table.ofRecords ((groups k.sameRun c.rows).map fun run =>
      reachedRecord k loss cum b (labelled c k run)) = .ok tb)
    (ends : Table.ofRecords ((groups k.sameRun c.rows).map fun run =>
      endRecord k loss cum (labelled c k run)) = .ok e)

include made made' ends

theorem labels_of_made {name : String} (label : name ∈ ["method", "seed"]) :
    tb.column? name = ta.column? name ∧ e.column? name = ta.column? name := by
  generalize same : groups k.sameRun c.rows = groups at made made' ends
  cases groups with
  | nil =>
    cases made.symm.trans made'
    cases made.symm.trans ends
    exact ⟨rfl, rfl⟩
  | cons first rest =>
    have known : (first :: rest)[0]? = some first := rfl
    have listed : name ∈ ["method", "seed", "target", "passes_to_target", "iter_to_target"] := by
      simp only [List.mem_cons, List.not_mem_nil, or_false] at label ⊢
      tauto
    have listed' : name ∈ ["method", "seed", "final_iter", "final_loss", "total_passes"] := by
      simp only [List.mem_cons, List.not_mem_nil, or_false] at label ⊢
      tauto
    rw [Table.column?_of_map (by decide) (fun run => names_reached (labelled c k run)) made known
        listed,
      Table.column?_of_map (by decide) (fun run => names_reached (labelled c k run)) made' known
        listed,
      Table.column?_of_map (by decide) (fun run => names_end (labelled c k run)) ends known listed',
      Table.settled, Table.settled, Table.settled, under_reached c k loss cum a b _ label,
      under_end c k loss cum a _ label]
    exact ⟨rfl, rfl⟩

theorem Tidy.consistent (tidy : Tidy c k cum) (below : a ≤ b) : Consistent ta tb e where
  labels name label := labels_of_made made made' ends label
  reached i x number := by
    have inside := Table.lt_of_numberAt? number
    rw [Table.length_ofRecords made, List.length_map] at inside
    have known := List.getElem?_eq_getElem inside
    generalize (groups k.sameRun c.rows)[i] = run at known
    obtain ⟨passes, iteration⟩ := numbers_reached made known
    obtain ⟨passes', iteration'⟩ := numbers_reached made' known
    obtain ⟨total, final⟩ := numbers_end ends known
    rw [passes] at number
    obtain ⟨row, hit, number⟩ := Option.bind_eq_some_iff.mp number
    obtain ⟨row', last, hit', ends, earlier, later⟩ := tidy.exists_hit (List.mem_of_getElem? known)
      (fun row _ => reaches_mono below) hit
    obtain ⟨⟨y, x', first, same, le⟩, n, m, part, same', le'⟩ := earlier
    obtain ⟨⟨x'', z, same'', total', le''⟩, m', f, same''', final', le'''⟩ := later
    rw [number] at same same''
    cases same
    cases same''
    rw [same'] at same'''
    cases same'''
    rw [hit] at iteration
    rw [hit'] at passes' iteration'
    rw [ends] at total final
    exact ⟨m, n, y, z, f, iteration.trans same', passes'.trans first, iteration'.trans part,
      total.trans total', final.trans final', le, le', le'', le'''⟩

end Made

theorem Ready.exists_tidy {sums : List Cell} (ready : Ready u k passes)
    (ordered : u.rows.Pairwise fun a b => k.key a < k.key b)
    (accumulated : Accumulated k passes u.rows sums) :
    ∃ cum, Tidy (u.setColumn "cum_passes" sums) k cum := by
  have count := accumulated.length
  have alike := alike_setColumn ready.wide ready.keys ready.place count
  have place := Table.index?_setColumn_self u "cum_passes" sums
  have column : (u.setColumn "cum_passes" sums).column? "cum_passes" = some sums :=
    Table.column?_setColumn_self ready.wide count
  generalize (u.index? "cum_passes").getD u.names.length = cum at place
  rw [Table.column?, place, Option.map_some, Option.some_inj] at column
  generalize known : u.setColumn "cum_passes" sums = c at alike place column
  have elsewhere {name : String} (apart : name ≠ "cum_passes") : c.index? name = u.index? name :=
    known ▸ Table.index?_setColumn_of_ne u apart sums
  obtain ⟨method, seed, iteration⟩ := index?_of_keysOf ready.keys
  have own {i : Nat} {row : List Cell} (found : c.rows[i]? = some row) :
      sums[i]? = some (Table.cell row cum) := by
    rw [← column, Table.columnAt, List.getElem?_map, found, Option.map_some]
  have countable : Countable (kind (u.columnAt passes)) (c.rows.map (Table.cell · passes)) :=
    alike.column ▸ countable_kind ready.ofOneKind fun c => ready.isCount
  have climbs {i j : Nat} {a b : List Cell} (first : c.rows[i]? = some a)
      (second : c.rows[j]? = some b) (order : i ≤ j) (same : k.run a = k.run b) :
      ∃ x y, (Table.cell a cum).number? = some x ∧ (Table.cell b cum).number? = some y ∧ x ≤ y := by
    have sums := (alike.accumulated accumulated).mono countable first second order same
    rwa [own first, own second] at sums
  refine ⟨cum, ?_⟩
  constructor
  case keys =>
    exact keysOf_of_index? ((elsewhere (by decide)).trans method)
      ((elsewhere (by decide)).trans seed) ((elsewhere (by decide)).trans iteration)
  case place => exact place
  case ranked => exact alike.ranked ready.ranked
  case ordered => exact alike.ordered ordered
  case labels =>
    exact alike.forall (P := fun v => ∀ n, v.method = .whole n ∨ v.seed = .whole n →
      (Float.ofInt n).isInf = false) ready.labels
  case finite =>
    exact alike.forall (P := fun v => ∃ x, v.iteration.number? = some x ∧ x.isInf = false)
      ready.finite
  case counted =>
    intro row member
    obtain ⟨i, found⟩ := List.getElem?_of_mem member
    obtain ⟨x, -, number, -⟩ := climbs found found le_rfl rfl
    exact ⟨x, number⟩
  case climbing =>
    refine List.pairwise_iff_getElem.mpr fun i j first second below same => ?_
    exact climbs (List.getElem?_eq_getElem first) (List.getElem?_eq_getElem second) below.le same

theorem doubles_of_rows {name : String} {cells : List Cell} (found : t.column? name = some cells)
    (fits : ∀ row ∈ t.rows, ∀ n, Cell.whole n ∈ row → (Float.ofInt n).isInf = false) :
    ∀ n, Cell.whole n ∈ cells → (Float.ofInt n).isInf = false := by
  obtain ⟨i, -, rfl⟩ := Option.map_eq_some_iff.mp found
  intro n member
  obtain ⟨row, inside, same⟩ := List.mem_map.mp member
  refine fits row inside n ?_
  rw [Table.cell] at same
  cases known : row[i]? with
  | none =>
    rw [known] at same
    cases same
  | some c =>
    rw [known] at same
    exact same ▸ List.mem_of_getElem? known

theorem History.fitting (history : History t) (read : coerce t = .ok u) (keys : keysOf u = .ok k)
    (place : u.index? "passes" = some passes)
    (small : Cell.wholeSum (u.columnAt passes) < 2 ^ 63) : Fitting u k passes := by
  obtain ⟨u', k', passes', read', -, -, ready⟩ := history.exists_ready
  cases read.symm.trans read'
  cases keys.symm.trans ready.keys
  cases place.symm.trans ready.place
  have countable := countable_kind ready.ofOneKind fun c => ready.isCount
  exact fun run => (wholeSum_le_of_sublist countable
    ((List.filter_sublist.trans (latest_sublist k.key u.rows)).map _)).trans_lt small

def single (entries : List (Int × Int × Int)) : Table :=
  ⟨["iter", "loss", "method", "passes", "seed"], entries.map fun (iteration, loss, passes) =>
    [.whole iteration, .whole loss, .text "cg", .whole passes, .whole 0]⟩

theorem history_single {entries : List (Int × Int × Int)}
    (fits : ∀ entry ∈ entries, (Float.ofInt entry.1).isInf = false ∧
      (Float.ofInt entry.2.1).isInf = false ∧ (Float.ofInt entry.2.2).isInf = false ∧
      0 ≤ Float.ofInt entry.2.2) : History (single entries) where
  wide row member := by
    obtain ⟨entry, -, rfl⟩ := List.mem_map.mp member
    rfl
  method := by
    refine ⟨_, rfl, fun c member => ?_⟩
    obtain ⟨row, inside, rfl⟩ := List.mem_map.mp member
    obtain ⟨entry, -, rfl⟩ := List.mem_map.mp inside
    rfl
  seed := by
    refine ⟨_, rfl, fun c member => ?_⟩
    obtain ⟨row, inside, rfl⟩ := List.mem_map.mp member
    obtain ⟨entry, -, rfl⟩ := List.mem_map.mp inside
    rfl
  iteration := by
    refine ⟨_, rfl, fun c member => ?_⟩
    obtain ⟨row, inside, rfl⟩ := List.mem_map.mp member
    obtain ⟨entry, listed, rfl⟩ := List.mem_map.mp inside
    exact ⟨_, Cell.reading?_whole (fits entry listed).1, (fits entry listed).1⟩
  passes := by
    refine ⟨_, rfl, fun c member => ?_⟩
    obtain ⟨row, inside, rfl⟩ := List.mem_map.mp member
    obtain ⟨entry, listed, rfl⟩ := List.mem_map.mp inside
    obtain ⟨-, -, small, above⟩ := fits entry listed
    exact ⟨_, Cell.reading?_whole small, small, above⟩
  doubles name _ cells found := doubles_of_rows found fun row member n inside => by
    obtain ⟨entry, listed, rfl⟩ := List.mem_map.mp member
    obtain ⟨first, second, third, -⟩ := fits entry listed
    simp only [List.mem_cons, Cell.whole.injEq, reduceCtorEq, List.not_mem_nil, or_false,
      false_or] at inside
    rcases inside with rfl | rfl | rfl | rfl
    · exact first
    · exact second
    · exact third
    · decide

def wrapping : Table := single [(1, 2, 2 ^ 62), (2, 1, 2 ^ 62)]

theorem sums_wrap : ∃ c, clean wrapping = .ok c ∧
    c.column? "cum_passes" = some [.whole (2 ^ 62), .whole (-2 ^ 63)] ∧
    ∀ k passes rows sums, keysOf wrapping = .ok k → wrapping.index? "passes" = some passes →
      Cleaned wrapping k passes rows sums →
      c ≠ { wrapping with rows := rows }.setColumn "cum_passes" sums := by
  have history : History wrapping := history_single (by decide)
  have whole : coerce wrapping = .ok wrapping := rfl
  obtain ⟨u, k, passes, read, -, -, ready⟩ := history.exists_ready
  cases whole.symm.trans read
  have ordered : wrapping.rows.Pairwise fun a b => k.key a < k.key b := by
    cases ready.keys
    refine List.pairwise_pair.mpr (Prod.Lex.toLex_lt_toLex.mpr (.inr ⟨rfl, ?_⟩))
    change (Cell.whole 1).rank < (Cell.whole 2).rank
    rw [Cell.rank_of_value (Cell.value?_whole 1), Cell.rank_of_value (Cell.value?_whole 2)]
    exact Sum.Lex.inl_lt_inl_iff.mpr (by norm_num)
  have sums : counted wrapping k passes =
      wrapping.setColumn "cum_passes" [.whole (2 ^ 62), .whole (-2 ^ 63)] := by
    cases ready.keys
    cases ready.place
    rw [counted, kept_of_pairwise ready.ranked ordered]
    rfl
  have column : (wrapping.setColumn "cum_passes" [.whole (2 ^ 62), .whole (-2 ^ 63)]).column?
      "cum_passes" = some [.whole (2 ^ 62), .whole (-2 ^ 63)] :=
    Table.column?_setColumn_self history.wide rfl
  refine ⟨_, clean_eq read ready.keys ready.place, sums ▸ column, ?_⟩
  intro k' passes' rows sums' keys place cleaned same
  cases keys.symm.trans ready.keys
  cases place.symm.trans ready.place
  have inside : rows ⊆ wrapping.rows := fun row member => by
    obtain ⟨before, after, parts, -⟩ := (cleaned.last row).mp member
    exact parts ▸ List.mem_append_right before (.head after)
  have column' : ({ wrapping with rows := rows }.setColumn "cum_passes" sums').column?
      "cum_passes" = some sums' :=
    Table.column?_setColumn_self (ready.of_subset inside).wide cleaned.accumulated.length
  rw [← same, sums, column] at column'
  cases column'
  have alike : ∀ row ∈ wrapping.rows, Table.cell row passes = .whole (2 ^ 62) ∧
      k.run row = toLex ((Cell.text "cg").rank, (Cell.whole 0).rank) := by
    cases ready.keys
    cases ready.place
    exact List.forall_mem_cons.mpr ⟨⟨rfl, rfl⟩, List.forall_mem_singleton.mpr ⟨rfl, rfl⟩⟩
  obtain ⟨a, b, rfl⟩ := List.length_eq_two.mp cleaned.accumulated.length.symm
  have sum := cleaned.accumulated.sum 1 b rfl
  obtain ⟨first, run⟩ := alike a (inside (.head [b]))
  obtain ⟨second, run'⟩ := alike b (inside (.tail a (.head [])))
  have both : upTo k passes [a, b] 1 b = [.whole (2 ^ 62), .whole (2 ^ 62)] := by
    simp [upTo, run, run', first, second]
  rw [both] at sum
  have wrong : Cell.whole (-2 ^ 63) = .whole (2 ^ 63) := Option.some.inj sum
  exact absurd (Cell.whole.inj wrong) (by decide)

def unending : Table :=
  ⟨["iter", "method", "passes", "seed"], [[.real (1 / 0), .text "cg", .whole 1, .whole 0]]⟩

def uneven (n : Int) : Table := ⟨["iter", "method", "passes", "seed"],
  [[.whole 1, .text "cg", .whole n, .whole 0], [.whole 2, .text "cg", .real 0.5, .whole 0]]⟩

theorem clean_uneven {n : Int} (large : (Float.ofInt n).isInf = true) :
    clean (uneven n) = .error .overflow := by
  have refused : numericColumn [.whole n, .real 0.5] = .error .overflow := by
    have mixed : kind [.whole n, .real 0.5] = .mixed := by
      simp [kind, Cell.isFlag, isSigned, isUnsigned, isReal]
    rw [numericColumn_eq, if_pos mixed, List.mapM_cons, numericCell, Literal.floatOfInt]
    simp only [large]
    rfl
  have fails : readColumn (uneven n) "passes" = .error .overflow := by
    have column : (uneven n).column? "passes" = some [.whole n, .real 0.5] := rfl
    rw [readColumn, column]
    simp only [refused, map_error]
  -- The columns before are of one kind or are not there.
  have steps : numericColumns.foldlM readColumn (uneven n) =
      readColumn (uneven n) "passes" >>= Except.ok := rfl
  have read : coerce (uneven n) = .error .overflow := by
    rw [coerce_eq, steps, fails]
    rfl
  rw [clean, read]
  rfl

end Passwise.Report
