import Mathlib
import Passwise.Proofs.Order
import Passwise.Report

set_option autoImplicit false

namespace Passwise

namespace Decimal.Value

theorem compare?_finite (x y : Dyadic) : compare? (.finite x) (.finite y) =
    some (compare ((x.signedNumerator : ℚ) / x.denominator)
      (y.signedNumerator / y.denominator)) := by
  have left : (0 : ℚ) < x.denominator := by exact_mod_cast x.denominator_pos
  have right : (0 : ℚ) < y.denominator := by exact_mod_cast y.denominator_pos
  rw [compare?]
  congr 1
  rcases lt_trichotomy (x.signedNumerator * y.denominator) (y.signedNumerator * x.denominator)
    with below | same | above
  · rw [compare_lt_iff_lt.mpr below, eq_comm, compare_lt_iff_lt, div_lt_div_iff₀ left right]
    exact_mod_cast below
  · rw [compare_eq_iff_eq.mpr same, eq_comm, compare_eq_iff_eq, div_eq_div_iff left.ne' right.ne']
    exact_mod_cast same
  · rw [compare_gt_iff_gt.mpr above, eq_comm, compare_gt_iff_gt, div_lt_div_iff₀ right left]
    exact_mod_cast above

end Decimal.Value

namespace Cell

-- Numbers come before texts.
abbrev Rank := ℚ ⊕ₗ List Char

def value? (c : Cell) : Option ℚ :=
  match c.decimal? with
  | some (.finite x) => some (x.signedNumerator / x.denominator)
  | _ => none

def rank? : Cell → Option Rank
  | text s => some (Sum.inrₗ s.toList)
  | c => c.value?.map Sum.inlₗ

variable {a b : Cell} {q r : ℚ} {left right : Rank}

theorem exists_finite (value : a.value? = some q) :
    ∃ x, a.decimal? = some (.finite x) ∧ (x.signedNumerator : ℚ) / x.denominator = q := by
  rw [value?] at value
  split at value
  · exact ⟨_, ‹_›, Option.some.inj value⟩
  · cases value

theorem compareNumbers_of_value (value : a.value? = some q) (value' : b.value? = some r) :
    a.compareNumbers b = some (compare q r) := by
  obtain ⟨x, known, rfl⟩ := exists_finite value
  obtain ⟨y, known', rfl⟩ := exists_finite value'
  rw [compareNumbers, known, known']
  exact Decimal.Value.compare?_finite x y

theorem isText_of_value (value : a.value? = some q) : a.isText = false := by
  cases a with
  | text s => cases value
  | _ => rfl

theorem rank?_of_numeral (numeral : a.isText = false) : a.rank? = a.value?.map Sum.inlₗ := by
  cases a <;> first | rfl | cases numeral

theorem rank?_cases (known : a.rank? = some left) :
    (∃ s, a = .text s ∧ left = Sum.inrₗ s.toList) ∨
      a.isText = false ∧ ∃ q, a.value? = some q ∧ left = Sum.inlₗ q := by
  cases numeral : a.isText with
  | true =>
    cases a with
    | text s => exact .inl ⟨s, rfl, (Option.some.inj known).symm⟩
    | _ => cases numeral
  | false =>
    rw [rank?_of_numeral numeral] at known
    obtain ⟨q, value, same⟩ := Option.map_eq_some_iff.mp known
    exact .inr ⟨rfl, q, value, same.symm⟩

theorem isMissing_of_value? (value : a.value? = some q) : a.isMissing = false := by
  obtain ⟨x, finite, -⟩ := exists_finite value
  cases a with
  | missing => cases finite
  | real x =>
    rw [isMissing, ← Bool.not_eq_true]
    intro undefined
    rw [decimal?, if_pos undefined] at finite
    cases finite
  | _ => rfl

theorem isMissing_of_rank? (known : a.rank? = some left) : a.isMissing = false := by
  rcases rank?_cases known with ⟨s, rfl, -⟩ | ⟨-, q, value, -⟩
  · rfl
  · exact isMissing_of_value? value

section Numerals

variable (numeral : a.isText = false) (number : a.isMissing = false)

include numeral number

theorem notAfter_text (s : String) : a.notAfter (.text s) = true := by
  have present : (text s).isMissing = false := rfl
  unfold notAfter
  rw [present, number]
  cases a with
  | text t => cases numeral
  | _ => rfl

theorem text_notAfter (s : String) : (text s).notAfter a = false := by
  have present : (text s).isMissing = false := rfl
  unfold notAfter
  rw [present, number]
  cases a with
  | text t => cases numeral
  | _ => rfl

omit number in
theorem text_same (s : String) : (text s).same a = false ∧ a.same (.text s) = false := by
  cases a with
  | text t => cases numeral
  | _ => simp [same, isMissing, compareNumbers, decimal?]

theorem notAfter_of_numerals (numeral' : b.isText = false) (number' : b.isMissing = false) :
    a.notAfter b = (a.compareNumbers b != some .gt) := by
  unfold notAfter
  rw [number, number']
  cases a with
  | text s => cases numeral
  | _ =>
    cases b with
    | text t => cases numeral'
    | _ => rfl

theorem same_of_numerals : a.same b = (a.compareNumbers b == some .eq) := by
  have numbers : a.same b = (a.isMissing && b.isMissing || a.compareNumbers b == some .eq) := by
    cases a with
    | text s => cases numeral
    | _ => rfl
  rw [numbers, number]
  rfl

end Numerals

theorem notAfter_eq (known : a.rank? = some left) (known' : b.rank? = some right) :
    a.notAfter b = decide (left ≤ right) := by
  rcases rank?_cases known with ⟨s, rfl, rfl⟩ | ⟨apart, q, value, rfl⟩ <;>
    rcases rank?_cases known' with ⟨t, rfl, rfl⟩ | ⟨apart', r, value', rfl⟩
  · have texts : (text s).notAfter (text t) = !decide (t < s) := rfl
    rw [texts, Bool.eq_iff_iff, Bool.not_eq_true', decide_eq_false_iff_not, decide_eq_true_iff,
      Sum.Lex.inr_le_inr_iff, ← not_lt]
    exact not_congr String.lt_iff
  · rw [text_notAfter apart' (isMissing_of_value? value'), eq_comm, decide_eq_false_iff_not]
    exact Sum.Lex.not_inr_le_inl
  · rw [notAfter_text apart (isMissing_of_value? value), eq_comm, decide_eq_true_iff]
    exact Sum.Lex.inl_le_inr q t.toList
  · rw [notAfter_of_numerals apart (isMissing_of_value? value) apart' (isMissing_of_value? value'),
      compareNumbers_of_value value value', Bool.eq_iff_iff, bne_iff_ne, decide_eq_true_iff,
      Sum.Lex.inl_le_inl_iff, ← compare_le_iff_le, Ne, Option.some_inj]

theorem same_eq (known : a.rank? = some left) (known' : b.rank? = some right) :
    a.same b = decide (left = right) := by
  rcases rank?_cases known with ⟨s, rfl, rfl⟩ | ⟨apart, q, value, rfl⟩ <;>
    rcases rank?_cases known' with ⟨t, rfl, rfl⟩ | ⟨apart', r, value', rfl⟩
  · have texts : (text s).same (.text t) = (s == t) := rfl
    rw [texts, Bool.eq_iff_iff, beq_iff_eq, decide_eq_true_iff, ← String.toList_inj]
    exact ⟨congrArg _, fun same => Sum.inr.inj same⟩
  · rw [(text_same apart' s).1, eq_comm, decide_eq_false_iff_not]
    exact nofun
  · rw [(text_same apart t).2, eq_comm, decide_eq_false_iff_not]
    exact nofun
  · rw [same_of_numerals apart (isMissing_of_value? value),
      compareNumbers_of_value value value', Bool.eq_iff_iff, beq_iff_eq, decide_eq_true_iff,
      Option.some_inj, compare_eq_iff_eq]
    exact ⟨congrArg _, fun same => Sum.inl.inj same⟩

def rank (c : Cell) : Rank := c.rank?.getD (Sum.inlₗ 0)

theorem rank?_eq (known : a.rank?.isSome = true) : a.rank? = some a.rank := by
  obtain ⟨left, same⟩ := Option.isSome_iff_exists.mp known
  rw [rank, same, Option.getD_some]

theorem rank_of_value (value : a.value? = some q) : a.rank = Sum.inlₗ q := by
  rw [rank, rank?_of_numeral (isText_of_value value), value]
  rfl

end Cell

namespace Report.Keys

abbrev RunKey := Cell.Rank ×ₗ Cell.Rank

abbrev Key := RunKey ×ₗ Cell.Rank

variable (k : Keys)

def run (row : List Cell) : RunKey :=
  toLex ((Table.cell row k.method).rank, (Table.cell row k.seed).rank)

def key (row : List Cell) : Key := toLex (k.run row, (Table.cell row k.iteration).rank)

structure Ranked (row : List Cell) : Prop where
  method : (Table.cell row k.method).rank?.isSome = true
  seed : (Table.cell row k.seed).rank?.isSome = true
  iteration : (Table.cell row k.iteration).rank?.isSome = true

variable {k} {a b : List Cell}

theorem Ranked.complete (ranked : k.Ranked a) : k.complete a = true := by
  simp [Keys.complete, Cell.isMissing_of_rank? (Cell.rank?_eq ranked.method),
    Cell.isMissing_of_rank? (Cell.rank?_eq ranked.seed),
    Cell.isMissing_of_rank? (Cell.rank?_eq ranked.iteration)]

theorem sameRun_eq (ranked : k.Ranked a) (ranked' : k.Ranked b) :
    k.sameRun a b = decide (k.run a = k.run b) := by
  rw [sameRun, Cell.same_eq (Cell.rank?_eq ranked.method) (Cell.rank?_eq ranked'.method),
    Cell.same_eq (Cell.rank?_eq ranked.seed) (Cell.rank?_eq ranked'.seed), ← Bool.decide_and,
    decide_eq_decide, run, run, toLex_inj, Prod.mk.injEq]

theorem sameRow_eq (ranked : k.Ranked a) (ranked' : k.Ranked b) :
    k.sameRow a b = decide (k.key a = k.key b) := by
  rw [sameRow, sameRun_eq ranked ranked',
    Cell.same_eq (Cell.rank?_eq ranked.iteration) (Cell.rank?_eq ranked'.iteration),
    ← Bool.decide_and, decide_eq_decide, key, key, toLex_inj, Prod.mk.injEq]

theorem ite_notAfter {x y : Cell} (known : x.rank?.isSome = true) (known' : y.rank?.isSome = true)
    (rest : Bool) : (if x.notAfter y && y.notAfter x then rest else x.notAfter y) =
      decide (x.rank < y.rank ∨ x.rank = y.rank ∧ rest = true) := by
  rw [Cell.notAfter_eq (Cell.rank?_eq known) (Cell.rank?_eq known'),
    Cell.notAfter_eq (Cell.rank?_eq known') (Cell.rank?_eq known)]
  rcases lt_trichotomy x.rank y.rank with below | same | above
  · simp [below, below.le, not_le.mpr below]
  · simp [same]
  · simp [above.le, not_le.mpr above, above.not_gt, above.ne']

theorem notAfter_eq (ranked : k.Ranked a) (ranked' : k.Ranked b) :
    k.notAfter a b = decide (k.key a ≤ k.key b) := by
  rw [notAfter, notAfter.go, notAfter.go, notAfter.go, notAfter.go,
    ite_notAfter ranked.iteration ranked'.iteration, ite_notAfter ranked.seed ranked'.seed,
    ite_notAfter ranked.method ranked'.method, decide_eq_decide]
  simp only [key, run, Prod.Lex.toLex_lt_toLex, toLex_inj, Prod.mk.injEq,
    le_iff_lt_or_eq, decide_eq_true_iff, and_true]
  tauto

end Report.Keys

end Passwise
