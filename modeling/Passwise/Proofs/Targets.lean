import Mathlib
import Passwise.Proofs.Cleaning
import Passwise.Proofs.Records

set_option autoImplicit false

namespace Passwise

section Whole

variable {v w : ℚ} {x : Float}

def wholePartOf (v : ℚ) : ℤ := if 0 ≤ v then ⌊v⌋ else ⌈v⌉

theorem wholePartOf_mono (below : v ≤ w) : wholePartOf v ≤ wholePartOf w := by
  rw [wholePartOf, wholePartOf]
  split_ifs with left right right
  · exact Int.floor_mono below
  · exact absurd (left.trans below) right
  · have upper : ⌈v⌉ ≤ 0 := Int.ceil_le.mpr (by exact_mod_cast (not_le.mp left).le)
    exact upper.trans (Int.floor_nonneg.mpr right)
  · exact Int.ceil_mono below

theorem wholePartOf_intCast (n : ℤ) : wholePartOf n = n := by
  rw [wholePartOf]
  split_ifs
  · exact Int.floor_intCast n
  · exact Int.ceil_intCast n

namespace Double

def largest : Nat := (2 ^ 53 - 1) * 2 ^ 971

theorem isInf_of_natAbs_le {n : ℤ} (inside : n.natAbs ≤ largest) :
    (Float.ofInt n).isInf = false := by
  have lower : (Float.ofInt (-largest)).isInf = false := by decide +kernel
  have upper : (Float.ofInt largest).isInf = false := by decide +kernel
  exact isInf_ofInt (by omega) (by omega) lower upper

end Double

namespace Decimal.Dyadic

theorem truncate_eq (y : Dyadic) :
    y.truncate = wholePartOf (y.signedNumerator / y.denominator) := by
  have positive : (0 : ℚ) < y.denominator := by exact_mod_cast y.denominator_pos
  have floor : ⌊((y.numerator : ℚ) / y.denominator)⌋ = ((y.numerator / y.denominator : ℕ) : ℤ) := by
    exact_mod_cast Rat.floor_natCast_div_natCast y.numerator y.denominator
  have above : (0 : ℚ) ≤ y.numerator / y.denominator := by positivity
  rw [truncate, signedNumerator, wholePartOf]
  cases y.negative with
  | false =>
    rw [if_neg Bool.false_ne_true, if_neg Bool.false_ne_true, Int.cast_natCast, if_pos above, floor]
    rfl
  | true =>
    rw [if_pos rfl, if_pos rfl, Int.cast_neg, Int.cast_natCast, neg_div, Int.ceil_neg, floor]
    split_ifs with below
    · have zero : (y.numerator : ℚ) / y.denominator = 0 := by linarith
      rw [zero] at floor ⊢
      rw [Int.ofNat_eq_natCast, ← floor]
      simp
    · rfl

theorem natAbs_truncate (y : Dyadic) : y.truncate.natAbs = y.numerator / y.denominator := by
  rw [truncate]
  split_ifs
  · exact Int.natAbs_neg _
  · rfl

theorem numerator_le {y : Dyadic} (known : Value.ofFloat x = .finite y) :
    y.numerator ≤ Double.largest := by
  have bounds : y.significand ≤ 2 ^ 53 - 1 ∧ y.exponent.toNat ≤ 971 := by
    rw [Value.ofFloat] at known
    simp only [Nat.pow_eq] at known
    split_ifs at known with top none zero <;> cases known <;> constructor <;> simp only <;> omega
  have power {e : Nat} (small : y.exponent.toNat ≤ e) : 2 ^ y.exponent.toNat ≤ 2 ^ e :=
    Nat.pow_le_pow_right two_pos small
  unfold numerator Double.largest
  exact Nat.mul_le_mul bounds.1 (power bounds.2)

theorem isInf_truncate {y : Dyadic} (known : Value.ofFloat x = .finite y) :
    (Float.ofInt y.truncate).isInf = false := by
  refine Double.isInf_of_natAbs_le ?_
  rw [natAbs_truncate]
  exact (Nat.div_le_self _ _).trans (numerator_le known)

end Decimal.Dyadic

namespace Cell

variable {c : Cell}

theorem value?_whole (n : ℤ) : (whole n).value? = some (n : ℚ) := by
  have numerator : Decimal.Dyadic.signedNumerator ⟨decide (n < 0), n.natAbs, 0⟩ = n := by
    rw [Decimal.Dyadic.signedNumerator, Decimal.Dyadic.numerator]
    simp only [Int.toNat_zero, Nat.pow_eq, Nat.pow_zero, Nat.mul_one, decide_eq_true_iff]
    split_ifs <;> omega
  have denominator : Decimal.Dyadic.denominator ⟨decide (n < 0), n.natAbs, 0⟩ = 1 := rfl
  rw [value?, decimal?, Decimal.Value.ofInt]
  simp only [numerator, denominator, Nat.cast_one, div_one]

theorem wholePart_flag (b : Bool) : Report.wholePart (flag b) = .whole (if b then 1 else 0) := by
  have zero : Decimal.Value.ofFloat 0 = .finite ⟨false, 0, -1074⟩ := by decide +kernel
  have one : Decimal.Value.ofFloat 1 = .finite ⟨false, 2 ^ 52, -52⟩ := by decide +kernel
  cases b with
  | false =>
    simp [Report.wholePart, number?, Literal.intOfFloat, zero, Decimal.Dyadic.truncate,
      Decimal.Dyadic.numerator]
  | true =>
    simp [Report.wholePart, number?, Literal.intOfFloat, one, Decimal.Dyadic.truncate,
      Decimal.Dyadic.numerator, Decimal.Dyadic.denominator]

theorem exists_wholePart (number : c.number? = some x) (finite : x.isInf = false) :
    ∃ v, c.value? = some v ∧ Report.wholePart c = .whole (wholePartOf v) ∧
      (Float.ofInt (wholePartOf v)).isInf = false := by
  cases c with
  | missing | text | collection => cases number
  | flag b =>
    have value : (flag b).value? = some (((if b then 1 else 0 : ℤ)) : ℚ) := value?_whole _
    refine ⟨_, value, ?_⟩
    rw [wholePart_flag, wholePartOf_intCast]
    cases b <;> exact ⟨rfl, by decide⟩
  | whole n =>
    obtain rfl := Option.some.inj number
    refine ⟨n, value?_whole n, ?_⟩
    rw [wholePartOf_intCast]
    exact ⟨rfl, finite⟩
  | real y =>
    obtain ⟨v, value⟩ := Option.isSome_iff_exists.mp (value?_of_number number finite)
    obtain ⟨z, known, rfl⟩ := exists_finite value
    have known' : Decimal.Value.ofFloat y = .finite z := by
      rw [decimal?] at known
      split_ifs at known
      exact Option.some.inj known
    obtain ⟨-, rfl⟩ := number?_real.mp number
    refine ⟨_, value, ?_⟩
    rw [← Decimal.Dyadic.truncate_eq]
    refine ⟨?_, Decimal.Dyadic.isInf_truncate known'⟩
    simp only [Report.wholePart, number, Option.map_some, Literal.intOfFloat, known']

end Cell

end Whole

namespace Report

section Runs

variable {c t : Table} {k : Keys} {loss cum : Nat} {a : Float}

def labelled (c : Table) (k : Keys) (run : List (List Cell)) : Cell × Cell × List (List Cell) :=
  (representative c k.method (Table.cell (run.headD []) k.method),
    representative c k.seed (Table.cell (run.headD []) k.seed), run)

theorem runsOf_eq (keys : keysOf c = .ok k) :
    runsOf c = .ok ((groups k.sameRun c.rows).map (labelled c k)) := by
  rw [runsOf, keys, ok_bind, ← List.filterMap_eq_map]
  refine congrArg Except.ok (List.filterMap_congr fun run member => ?_)
  cases run with
  | nil => exact absurd rfl (ne_nil_of_mem_groups member)
  | cons first rest => rfl

def reaches (loss : Nat) (a : Float) (row : List Cell) : Bool :=
  (Table.cell row loss).number?.any fun x => decide (x ≤ a)

def reachedRecord (k : Keys) (loss cum : Nat) (a : Float) :
    Cell × Cell × List (List Cell) → Record
  | (method, seed, run) => [
      ("method", method), ("seed", seed), ("target", .real a),
      ("passes_to_target",
        (run.find? (reaches loss a)).elim .missing fun row => realPart (Table.cell row cum)),
      ("iter_to_target",
        (run.find? (reaches loss a)).elim .missing
          fun row => wholePart (Table.cell row k.iteration))
    ]

def endRecord (k : Keys) (loss cum : Nat) : Cell × Cell × List (List Cell) → Record
  | (method, seed, run) => [
      ("method", method), ("seed", seed),
      ("final_iter", wholePart (Table.cell (run.getLast?.getD []) k.iteration)),
      ("final_loss", realPart
        (((run.map (Table.cell · loss)).filter (!·.isMissing)).getLast?.getD .missing)),
      ("total_passes", realPart (Table.cell (run.getLast?.getD []) cum))
    ]

theorem given_of_mem_groups {run : List (List Cell)} (member : run ∈ groups k.sameRun c.rows) :
    c.rows ≠ [] := by
  intro none
  rw [none] at member
  cases member

section Tables

variable (keys : keysOf c = .ok k) (place : c.index? "cum_passes" = some cum)
  (given : c.rows ≠ [] → c.index? "loss" = some loss)

include keys place given

theorem firstReached_eq : firstReached c (.real a) =
    Table.ofRecords ((groups k.sameRun c.rows).map fun run =>
      reachedRecord k loss cum a (labelled c k run)) := by
  obtain ⟨-, -, iteration⟩ := index?_of_keysOf keys
  rw [firstReached, runsOf_eq keys, ok_bind, List.mapM_map, mapM_ok, ok_bind]
  intro run member
  rw [Function.comp_apply, labelled]
  simp only [index_of_index? iteration, index_of_index? place,
    index_of_index? (given (given_of_mem_groups member)), ok_bind]
  rfl

theorem endpoints_eq : endpoints c =
    Table.ofRecords ((groups k.sameRun c.rows).map fun run =>
      endRecord k loss cum (labelled c k run)) := by
  obtain ⟨-, -, iteration⟩ := index?_of_keysOf keys
  rw [endpoints, runsOf_eq keys, ok_bind, List.mapM_map, mapM_ok, ok_bind]
  intro run member
  rw [Function.comp_apply, labelled]
  simp only [index_of_index? iteration, index_of_index? place,
    index_of_index? (given (given_of_mem_groups member)), ok_bind]
  rfl

end Tables

end Runs

section Order

section Lists

variable {β : Type} {R : β → β → Prop} {xs : List β} {x : β}

theorem exists_find {p q : β → Bool} (easier : ∀ x ∈ xs, p x = true → q x = true)
    (ordered : xs.Pairwise R) (hit : xs.find? p = some x) :
    ∃ y, xs.find? q = some y ∧ (y = x ∨ R y x) := by
  induction xs with
  | nil => cases hit
  | cons z rest ih =>
    obtain ⟨first, ordered⟩ := List.pairwise_cons.mp ordered
    cases met : q z with
    | true =>
      refine ⟨z, List.find?_cons_of_pos met, ?_⟩
      rcases List.mem_cons.mp (List.mem_of_find?_eq_some hit) with rfl | later
      · exact .inl rfl
      · exact .inr (first x later)
    | false =>
      have unmet : ¬ p z = true := fun met' => by
        rw [easier z (.head rest) met'] at met
        cases met
      rw [List.find?_cons_of_neg unmet] at hit
      rw [List.find?_cons_of_neg (met ▸ Bool.false_ne_true)]
      exact ih (fun y member => easier y (.tail z member)) ordered hit

theorem exists_getLast (ordered : xs.Pairwise R) (member : x ∈ xs) :
    ∃ y, xs.getLast? = some y ∧ (x = y ∨ R x y) := by
  rcases List.eq_nil_or_concat xs with rfl | ⟨before, last, rfl⟩
  · cases member
  · refine ⟨last, by simp, ?_⟩
    rcases List.mem_append.mp (List.concat_eq_append ▸ member) with earlier | same
    · exact .inr ((List.pairwise_append.mp (List.concat_eq_append ▸ ordered)).2.2 x earlier last
        (.head []))
    · exact .inl (List.mem_singleton.mp same)

end Lists

variable {c : Table} {k : Keys} {loss cum : Nat} {a b : List Cell} {run : List (List Cell)}

def NotLater (k : Keys) (cum : Nat) (a b : List Cell) : Prop :=
  (∃ x y, (Table.cell a cum).number? = some x ∧ (Table.cell b cum).number? = some y ∧ x ≤ y) ∧
    ∃ x y, (wholePart (Table.cell a k.iteration)).number? = some x ∧
      (wholePart (Table.cell b k.iteration)).number? = some y ∧ x ≤ y

structure Tidy (c : Table) (k : Keys) (cum : Nat) : Prop where
  keys : keysOf c = .ok k
  place : c.index? "cum_passes" = some cum
  ranked : ∀ row ∈ c.rows, k.Ranked row
  ordered : c.rows.Pairwise fun a b => k.key a < k.key b
  labels : ∀ row ∈ c.rows, ∀ n, Table.cell row k.method = .whole n ∨
    Table.cell row k.seed = .whole n → (Float.ofInt n).isInf = false
  finite : ∀ row ∈ c.rows, ∃ x, (Table.cell row k.iteration).number? = some x ∧ x.isInf = false
  counted : ∀ row ∈ c.rows, ∃ x, (Table.cell row cum).number? = some x
  climbing : c.rows.Pairwise fun a b => k.run a = k.run b → ∃ x y,
    (Table.cell a cum).number? = some x ∧ (Table.cell b cum).number? = some y ∧ x ≤ y

variable (tidy : Tidy c k cum)

include tidy

theorem Tidy.notLater_self (member : a ∈ c.rows) : NotLater k cum a a := by
  obtain ⟨x, number⟩ := tidy.counted a member
  obtain ⟨y, iteration, finite⟩ := tidy.finite a member
  obtain ⟨v, -, part, -⟩ := Cell.exists_wholePart iteration finite
  refine ⟨⟨x, x, number, number, Double.le_self (Cell.isNaN_of_number number)⟩, ?_⟩
  rw [part]
  exact ⟨_, _, rfl, rfl, Double.ofInt_mono le_rfl⟩

theorem Tidy.pairwise_run (member : run ∈ groups k.sameRun c.rows) :
    run.Pairwise (NotLater k cum) := by
  have within := sublist_of_mem_groups member
  have both := (tidy.ordered.and tidy.climbing).sublist within
  refine both.imp_of_mem fun {a b} left right order => ?_
  have same := run_eq_of_mem_groups tidy.ranked member a left b right
  refine ⟨order.2 same, ?_⟩
  obtain ⟨x, iteration, finite⟩ := tidy.finite a (within.subset left)
  obtain ⟨y, iteration', finite'⟩ := tidy.finite b (within.subset right)
  obtain ⟨v, value, part, -⟩ := Cell.exists_wholePart iteration finite
  obtain ⟨w, value', part', -⟩ := Cell.exists_wholePart iteration' finite'
  have below : v ≤ w := by
    have later := order.1
    rw [Keys.key, Keys.key, same, Cell.rank_of_value value, Cell.rank_of_value value'] at later
    rcases Prod.Lex.toLex_lt_toLex.mp later with before | ⟨-, after⟩
    · exact absurd before (lt_irrefl _)
    · exact (Sum.Lex.inl_lt_inl_iff.mp after).le
  rw [part, part']
  exact ⟨_, _, rfl, rfl, Double.ofInt_mono (wholePartOf_mono below)⟩

theorem Tidy.exists_hit {p q : List Cell → Bool} (member : run ∈ groups k.sameRun c.rows)
    (easier : ∀ row ∈ run, p row = true → q row = true) (hit : run.find? p = some a) :
    ∃ b last, run.find? q = some b ∧ run.getLast? = some last ∧ NotLater k cum b a ∧
      NotLater k cum a last := by
  have ordered := tidy.pairwise_run member
  have inside := mem_of_mem_groups member (List.mem_of_find?_eq_some hit)
  have self := tidy.notLater_self inside
  obtain ⟨b, hit', earlier⟩ := exists_find easier ordered hit
  obtain ⟨last, ends, later⟩ := exists_getLast ordered (List.mem_of_find?_eq_some hit)
  refine ⟨b, last, hit', ends, ?_, ?_⟩
  · rcases earlier with rfl | order
    · exact self
    · exact order
  · rcases later with rfl | order
    · exact self
    · exact order

end Order

section Rows

variable {c t : Table} {k : Keys} {loss cum i : Nat} {a : Float} {run : List (List Cell)}

theorem names_reached (runs : Cell × Cell × List (List Cell)) :
    (reachedRecord k loss cum a runs).map Prod.fst =
      ["method", "seed", "target", "passes_to_target", "iter_to_target"] := rfl

theorem names_end (runs : Cell × Cell × List (List Cell)) :
    (endRecord k loss cum runs).map Prod.fst =
      ["method", "seed", "final_iter", "final_loss", "total_passes"] := rfl

theorem under_reached (c : Table) (k : Keys) (loss cum : Nat) (a b : Float)
    (runs : List (List (List Cell))) {name : String} (label : name ∈ ["method", "seed"]) :
    Table.under (runs.map fun run => reachedRecord k loss cum b (labelled c k run)) name =
      Table.under (runs.map fun run => reachedRecord k loss cum a (labelled c k run)) name := by
  simp only [List.mem_cons, List.not_mem_nil, or_false] at label
  rcases label with rfl | rfl <;> exact Table.under_congr _ fun _ => rfl

theorem under_end (c : Table) (k : Keys) (loss cum : Nat) (a : Float)
    (runs : List (List (List Cell))) {name : String} (label : name ∈ ["method", "seed"]) :
    Table.under (runs.map fun run => endRecord k loss cum (labelled c k run)) name =
      Table.under (runs.map fun run => reachedRecord k loss cum a (labelled c k run)) name := by
  simp only [List.mem_cons, List.not_mem_nil, or_false] at label
  rcases label with rfl | rfl <;> exact Table.under_congr _ fun _ => rfl

theorem number_elim (hit : Option (List Cell)) (f : List Cell → Cell) :
    (hit.elim .missing f).number? = hit.bind fun row => (f row).number? := by
  cases hit <;> rfl

theorem numbers_reached (made : Table.ofRecords ((groups k.sameRun c.rows).map fun run =>
      reachedRecord k loss cum a (labelled c k run)) = .ok t)
    (known : (groups k.sameRun c.rows)[i]? = some run) :
    t.numberAt? "passes_to_target" i =
        (run.find? (reaches loss a)).bind (fun row => (Table.cell row cum).number?) ∧
      t.numberAt? "iter_to_target" i = (run.find? (reaches loss a)).bind
        fun row => (wholePart (Table.cell row k.iteration)).number? := by
  constructor
  · rw [Table.numberAt?_of_map (by decide) (fun run => names_reached (labelled c k run)) made known
      (c := (run.find? (reaches loss a)).elim .missing
        fun row => realPart (Table.cell row cum)) rfl, number_elim]
    simp only [realPart, Cell.number_ofNumber]
  · rw [Table.numberAt?_of_map (by decide) (fun run => names_reached (labelled c k run)) made known
      (c := (run.find? (reaches loss a)).elim .missing
        fun row => wholePart (Table.cell row k.iteration)) rfl, number_elim]

theorem numbers_end (made : Table.ofRecords ((groups k.sameRun c.rows).map fun run =>
      endRecord k loss cum (labelled c k run)) = .ok t)
    (known : (groups k.sameRun c.rows)[i]? = some run) :
    t.numberAt? "total_passes" i = (Table.cell (run.getLast?.getD []) cum).number? ∧
      t.numberAt? "final_iter" i =
        (wholePart (Table.cell (run.getLast?.getD []) k.iteration)).number? := by
  constructor
  · rw [Table.numberAt?_of_map (by decide) (fun run => names_end (labelled c k run)) made known
      (c := realPart (Table.cell (run.getLast?.getD []) cum)) rfl, realPart, Cell.number_ofNumber]
  · rw [Table.numberAt?_of_map (by decide) (fun run => names_end (labelled c k run)) made known
      (c := wholePart (Table.cell (run.getLast?.getD []) k.iteration)) rfl]

theorem realPart_ne_whole (d : Cell) (n : ℤ) : realPart d ≠ .whole n := by
  rw [realPart]
  cases d.number? <;> exact nofun

theorem settle_under {β : Type} {record : β → Record} {xs : List β} {name : String}
    (f : β → Cell) (same : ∀ x, (record x).lookup name = some (f x))
    (doubles : ∀ x ∈ xs, ∀ n, f x = .whole n → (Float.ofInt n).isInf = false) :
    ∃ cells, Column.settle (Table.under (xs.map record) name) = .ok cells := by
  refine Column.exists_settle fun n member => ?_
  rw [Table.under_map] at member
  obtain ⟨x, inside, known⟩ := List.mem_map.mp member
  rw [same, Option.getD_some] at known
  exact doubles x inside n known

theorem Tidy.isInf_wholePart (tidy : Tidy c k cum) {row : List Cell} (member : row ∈ c.rows)
    {n : ℤ} (known : wholePart (Table.cell row k.iteration) = .whole n) :
    (Float.ofInt n).isInf = false := by
  obtain ⟨x, number, finite⟩ := tidy.finite row member
  obtain ⟨v, -, part, inside⟩ := Cell.exists_wholePart number finite
  rw [part] at known
  cases known
  exact inside

theorem representative_cell {row : List Cell} (member : row ∈ c.rows) (i : Nat) :
    ∃ row' ∈ c.rows, representative c i (Table.cell row i) = Table.cell row' i := by
  rw [representative]
  cases found : (c.columnAt i).find? (·.same (Table.cell row i)) with
  | none => exact ⟨row, member, rfl⟩
  | some d =>
    obtain ⟨row', member', same⟩ := List.mem_map.mp (List.mem_of_find?_eq_some found)
    exact ⟨row', member', same.symm⟩

section Made

variable (tidy : Tidy c k cum)

include tidy

theorem Tidy.isInf_labels (member : run ∈ groups k.sameRun c.rows) {n : ℤ}
    (known : (labelled c k run).1 = .whole n ∨ (labelled c k run).2.1 = .whole n) :
    (Float.ofInt n).isInf = false := by
  cases run with
  | nil => exact absurd rfl (ne_nil_of_mem_groups member)
  | cons first rest =>
    have inside := mem_of_mem_groups member (.head rest)
    rcases known with method | seed
    · obtain ⟨row, member', same⟩ := representative_cell inside k.method
      exact tidy.labels row member' n (.inl (same.symm.trans method))
    · obtain ⟨row, member', same⟩ := representative_cell inside k.seed
      exact tidy.labels row member' n (.inr (same.symm.trans seed))

theorem Tidy.exists_reached (loss : Nat) (a : Float) :
    ∃ t, Table.ofRecords ((groups k.sameRun c.rows).map fun run =>
      reachedRecord k loss cum a (labelled c k run)) = .ok t := by
  refine Table.exists_ofRecords (by decide) (fun run => names_reached (labelled c k run)) ?_
  simp only [List.forall_mem_cons, List.not_mem_nil, false_imp_iff, implies_true, and_true]
  refine ⟨?_, ?_, ?_, ?_, ?_⟩
  · exact settle_under (fun run => (labelled c k run).1) (fun _ => rfl)
      fun run member n known => tidy.isInf_labels member (.inl known)
  · exact settle_under (fun run => (labelled c k run).2.1) (fun _ => rfl)
      fun run member n known => tidy.isInf_labels member (.inr known)
  · exact settle_under (fun _ => .real a) (fun _ => rfl) nofun
  · refine settle_under (fun run => (run.find? (reaches loss a)).elim .missing fun row =>
      realPart (Table.cell row cum)) (fun _ => rfl) fun run _ n known => ?_
    cases hit : run.find? (reaches loss a) <;> rw [hit] at known
    · cases known
    · exact absurd known (realPart_ne_whole _ n)
  · refine settle_under (fun run => (run.find? (reaches loss a)).elim .missing fun row =>
      wholePart (Table.cell row k.iteration)) (fun _ => rfl) fun run member n known => ?_
    cases hit : run.find? (reaches loss a) <;> rw [hit] at known
    · cases known
    · exact tidy.isInf_wholePart (mem_of_mem_groups member (List.mem_of_find?_eq_some hit)) known

theorem Tidy.exists_end (loss : Nat) :
    ∃ t, Table.ofRecords ((groups k.sameRun c.rows).map fun run =>
      endRecord k loss cum (labelled c k run)) = .ok t := by
  refine Table.exists_ofRecords (by decide) (fun run => names_end (labelled c k run)) ?_
  simp only [List.forall_mem_cons, List.not_mem_nil, false_imp_iff, implies_true, and_true]
  refine ⟨?_, ?_, ?_, ?_, ?_⟩
  · exact settle_under (fun run => (labelled c k run).1) (fun _ => rfl)
      fun run member n known => tidy.isInf_labels member (.inl known)
  · exact settle_under (fun run => (labelled c k run).2.1) (fun _ => rfl)
      fun run member n known => tidy.isInf_labels member (.inr known)
  · refine settle_under (fun run => wholePart (Table.cell (run.getLast?.getD []) k.iteration))
      (fun _ => rfl) fun run member n known => ?_
    have given := ne_nil_of_mem_groups member
    rw [List.getLast?_eq_getLast_of_ne_nil given, Option.getD_some] at known
    exact tidy.isInf_wholePart (mem_of_mem_groups member (List.getLast_mem given)) known
  · exact settle_under (fun run => realPart _) (fun _ => rfl)
      fun run _ n known => absurd known (realPart_ne_whole _ n)
  · exact settle_under (fun run => realPart _) (fun _ => rfl)
      fun run _ n known => absurd known (realPart_ne_whole _ n)

end Made

end Rows

end Report

end Passwise
