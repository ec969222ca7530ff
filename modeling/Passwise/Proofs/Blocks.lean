import Passwise.Proofs.Strides
import Passwise.Proofs.Winning

set_option autoImplicit false

namespace Passwise

theorem wholeCell_of_isFinite {x : Float} (finite : Scalar.isFinite x = true) :
    wholeCell x = .ok (Scalar.truncate x) := by
  rw [wholeCell, Double.isNaN_of_isFinite finite, finite]
  rfl

theorem mapM_range_eq_ok_iff {β : Type} {f : Nat → Except Error β} {n : Nat} {ys : List β} :
    (List.range n).mapM f = .ok ys ↔ ys.length = n ∧ ∀ i y, ys[i]? = some y → f i = .ok y := by
  constructor
  · intro made
    have each := forall₂_of_mapM made
    refine ⟨by simpa using each.length_eq.symm, fun i y here => ?_⟩
    obtain ⟨j, place, same⟩ := getElem?_forall₂ each.flip here
    obtain ⟨-, rfl⟩ : i < n ∧ i = j := by simpa [List.getElem?_eq_some_iff] using place
    exact same
  · rintro ⟨rfl, each⟩
    exact mapM_range_ok fun i => each i _ (List.getElem?_eq_getElem i.isLt)

namespace Candidate

-- The first cell of a block is not looked at: the model is what follows the head.
inductive Reads : List Float → Candidate Float → Prop
  | block (length step loss rows : Float) (model : Vec Float) :
      Reads (length :: step :: loss :: rows :: model)
        ⟨model, some step, loss, Scalar.truncate rows⟩

variable {block : List Float} {c : Candidate Float}

theorem Reads.length (reads : Reads block c) : block.length = 4 + c.model.length := by
  cases reads
  simp only [List.length_cons]
  omega

theorem exists_reads (long : 4 ≤ block.length) : ∃ c, Reads block c := by
  rcases block with _ | ⟨length, _ | ⟨step, _ | ⟨loss, _ | ⟨rows, model⟩⟩⟩⟩
  · simp at long
  · simp at long
  · simp at long
  · simp at long
  · exact ⟨_, .block length step loss rows model⟩

theorem Reads.read (reads : Reads block c) (finite : ∀ x ∈ block, Scalar.isFinite x = true) :
    ofCells block = .ok c := by
  obtain ⟨length, step, loss, rows, model⟩ := reads
  have number : scalarCell? step = some step :=
    if_neg (by simp [Double.isNaN_of_isFinite (finite step (by simp))])
  change (wholeCell rows >>= fun count => Except.ok (Candidate.mk model (scalarCell? step) loss
    count)) = _
  rw [wholeCell_of_isFinite (finite rows (by simp)), ok_bind, number]

theorem ofCells_short (short : block.length < 4) : ofCells block = .error .outOfRange := by
  rcases block with _ | ⟨length, _ | ⟨step, _ | ⟨loss, _ | ⟨rows, model⟩⟩⟩⟩
  · rfl
  · rfl
  · rfl
  · rfl
  · simp at short
    omega

theorem ofCells_eq_ok_iff (finite : ∀ x ∈ block, Scalar.isFinite x = true) :
    ofCells block = .ok c ↔ Reads block c := by
  refine ⟨fun read => ?_, fun reads => reads.read finite⟩
  rcases Nat.lt_or_ge block.length 4 with short | long
  · cases (ofCells_short short).symm.trans read
  · obtain ⟨other, reads⟩ := exists_reads long
    cases (reads.read finite).symm.trans read
    exact reads

end Candidate

namespace Search

def blockAt (cells : List Float) (width i : Nat) : List Float :=
  (cells.drop (1 + i * width)).take width

inductive Reads (cells : List Float) : Option (List (Candidate Float)) → Prop
  | nothing {x : Float} : cells[0]? = some x → Scalar.truncate x = 0 → Reads cells none
  | hollow {x y : Float} : cells[0]? = some x → cells[1]? = some y → Scalar.truncate x < 0 →
      (cells.length : Int) = 1 + Scalar.truncate x * (4 + Scalar.truncate y) →
      Reads cells (some [])
  | candidates {x y : Float} {d : Nat} {state : List (Candidate Float)} :
      cells[0]? = some x → cells[1]? = some y → state ≠ [] →
      Scalar.truncate x = state.length → Scalar.truncate y = d →
      cells.length = 1 + state.length * (4 + d) →
      (∀ i c, state[i]? = some c → Candidate.Reads (blockAt cells (4 + d) i) c) →
      Reads cells (some state)

-- As many candidates as the first cell says, and each one's model as long as the first cell of its
-- block says.
structure Announced (cells : List Float) (outcome : Option (List (Candidate Float))) : Prop where
  count : ∃ x, cells[0]? = some x ∧ Double.HasValue x ((outcome.elim 0 List.length : Nat) : Int)
  nonempty : ∀ state ∈ outcome, state ≠ []
  models : ∀ state ∈ outcome, ∀ i c, state[i]? = some c →
    ∃ x, cells[1 + i * (4 + c.model.length)]? = some x ∧
      Double.HasValue x ((c.model.length : Nat) : Int)

def Counted (cells : List Float) : Prop :=
  ∃ (n d : Nat) (x : Float), cells[0]? = some x ∧ Double.HasValue x (n : Int) ∧
    ∀ i < n, ∃ y, cells[1 + i * (4 + d)]? = some y ∧ Double.HasValue y (d : Int)

section

variable {cells : List Float} {outcome : Option (List (Candidate Float))} {x y : Float} {d : Nat}
  {state : List (Candidate Float)}

theorem length_blockAt_le (cells : List Float) (width i : Nat) :
    (blockAt cells width i).length ≤ width :=
  List.length_take_le _ _

theorem length_blockAt {n width i : Nat} (size : cells.length = 1 + n * width) (below : i < n) :
    (blockAt cells width i).length = width := by
  have room : (i + 1) * width ≤ n * width := Nat.mul_le_mul_right width below
  rw [blockAt, List.length_take, List.length_drop, size]
  rw [Nat.succ_mul] at room
  omega

theorem exists_length_of_mapM {n : Nat} {dimension : Int} (positive : 0 < n)
    (made : ((List.range n).mapM fun i =>
      Candidate.ofCells (blockAt cells (4 + dimension).toNat i)) = .ok state) :
    ∃ d : Nat, dimension = d := by
  by_contra none
  have negative : dimension < 0 := by
    by_contra above
    exact none (Int.eq_ofNat_of_zero_le (by omega))
  obtain ⟨length, each⟩ := mapM_range_eq_ok_iff.mp made
  have read := each 0 _ (List.getElem?_eq_getElem (length ▸ positive))
  have short : (blockAt cells (4 + dimension).toNat 0).length < 4 := by
    have taken := length_blockAt_le cells (4 + dimension).toNat 0
    omega
  cases (Candidate.ofCells_short short).symm.trans read

section

variable (finite : ∀ x ∈ cells, Scalar.isFinite x = true)

include finite

theorem wholeCell_at {i : Nat} (here : cells[i]? = some x) :
    (cellAt cells i >>= wholeCell) = .ok (Scalar.truncate x) := by
  rw [cellAt, here]
  exact wholeCell_of_isFinite (finite x (List.mem_of_getElem? here))

theorem ofCells_of_zero (first : cells[0]? = some x) (zero : Scalar.truncate x = 0) :
    ofCells cells = .ok none := by
  rw [ofCells, ← bind_assoc, wholeCell_at finite first, ok_bind, if_pos zero, pure_ok]

theorem ofCells_of_ne (first : cells[0]? = some x) (second : cells[1]? = some y)
    (nonzero : Scalar.truncate x ≠ 0) :
    ofCells cells =
      if (cells.length : Int) = 1 + Scalar.truncate x * (4 + Scalar.truncate y) then
        some <$> (List.range (Scalar.truncate x).toNat).mapM fun i =>
          Candidate.ofCells (blockAt cells (4 + Scalar.truncate y).toNat i)
      else .error (.searchBlobLength cells.length (Scalar.truncate x) (Scalar.truncate y)) := by
  rw [ofCells, ← bind_assoc, wholeCell_at finite first, ok_bind, if_neg nonzero, ← bind_assoc,
    wholeCell_at finite second, ok_bind]
  by_cases fits : (cells.length : Int) = 1 + Scalar.truncate x * (4 + Scalar.truncate y)
  · simp [fits, blockAt]
    rfl
  · simp [fits]

theorem finite_blockAt {width i : Nat} : ∀ x ∈ blockAt cells width i, Scalar.isFinite x = true :=
  fun x member => finite x (List.mem_of_mem_drop (List.mem_of_mem_take member))

theorem Reads.read (reads : Reads cells outcome) : ofCells cells = .ok outcome := by
  cases reads with
  | nothing first zero => exact ofCells_of_zero finite first zero
  | hollow first second negative size =>
    have none : (Scalar.truncate _).toNat = 0 := Int.toNat_of_nonpos negative.le
    rw [ofCells_of_ne finite first second negative.ne, if_pos size, none]
    rfl
  | @candidates x y d state first second some count length size each =>
    have nonzero : Scalar.truncate x ≠ 0 := by simpa [count] using some
    have fits : (cells.length : Int) = 1 + Scalar.truncate x * (4 + Scalar.truncate y) := by
      rw [count, length, size]
      push_cast
      rfl
    have width : (4 + (d : Int)).toNat = 4 + d := by omega
    have made : ((List.range state.length).mapM fun i =>
        Candidate.ofCells (blockAt cells (4 + d) i)) = .ok state :=
      mapM_range_eq_ok_iff.mpr ⟨rfl, fun i c here => (each i c here).read (finite_blockAt finite)⟩
    rw [ofCells_of_ne finite first second nonzero, if_pos fits, count, length, width,
      Int.toNat_natCast, made]
    rfl

theorem reads_of_read (read : ofCells cells = .ok outcome) : Reads cells outcome := by
  rcases first : cells[0]? with _ | x
  · rw [ofCells, cellAt, first] at read
    cases read
  by_cases zero : Scalar.truncate x = 0
  · cases (ofCells_of_zero finite first zero).symm.trans read
    exact .nothing first zero
  rcases second : cells[1]? with _ | y
  · rw [ofCells, ← bind_assoc, wholeCell_at finite first, ok_bind, if_neg zero, cellAt, second]
      at read
    cases read
  rw [ofCells_of_ne finite first second zero] at read
  split_ifs at read with fits
  rcases made : (List.range (Scalar.truncate x).toNat).mapM fun i =>
      Candidate.ofCells (blockAt cells (4 + Scalar.truncate y).toNat i) with cause | state
  · rw [made] at read
    cases read
  rw [made] at read
  cases read
  rcases Int.lt_or_gt_of_ne zero with negative | positive
  · rw [Int.toNat_of_nonpos negative.le] at made
    cases made
    exact .hollow first second negative fits
  · obtain ⟨d, length⟩ := exists_length_of_mapM (by omega) made
    have width : (4 + (d : Int)).toNat = 4 + d := by omega
    rw [length, width] at made
    rw [length] at fits
    obtain ⟨count, each⟩ := mapM_range_eq_ok_iff.mp made
    have marker : Scalar.truncate x = state.length := by omega
    refine .candidates first second ?_ marker length ?_ fun i c here => ?_
    · rintro rfl
      exact zero marker
    · rw [marker] at fits
      exact_mod_cast fits
    · exact (Candidate.ofCells_eq_ok_iff (finite_blockAt finite)).mp (each i c here)

theorem ofCells_eq_ok_iff : ofCells cells = .ok outcome ↔ Reads cells outcome :=
  ⟨reads_of_read finite, Reads.read finite⟩

end

theorem length_model {n i : Nat} {c : Candidate Float} (size : cells.length = 1 + n * (4 + d))
    (below : i < n) (reads : Candidate.Reads (blockAt cells (4 + d) i) c) : c.model.length = d := by
  have block := reads.length
  rw [length_blockAt size below] at block
  omega

theorem Reads.counted (reads : Reads cells outcome) (announced : Announced cells outcome) :
    Counted cells := by
  obtain ⟨x, first, value⟩ := announced.count
  cases reads with
  | nothing => exact ⟨0, 0, x, first, value, by simp⟩
  | hollow => exact absurd rfl (announced.nonempty [] rfl)
  | @candidates _ y d state _ second some count length size each =>
    refine ⟨state.length, d, x, first, value, fun i below => ?_⟩
    have here := List.getElem?_eq_getElem below
    have announcedLength := announced.models state rfl i _ here
    rwa [length_model size below (each i _ here)] at announcedLength

theorem Reads.announced (reads : Reads cells outcome) (counted : Counted cells) :
    Announced cells outcome := by
  obtain ⟨n, d, x, first, value, lengths⟩ := counted
  cases reads with
  | @nothing x' first' zero =>
    cases first'.symm.trans first
    obtain rfl : n = 0 := by exact_mod_cast value.truncate.symm.trans zero
    exact ⟨⟨x, first, value⟩, by simp, by simp⟩
  | @hollow x' y first' second negative =>
    cases first'.symm.trans first
    rw [value.truncate] at negative
    omega
  | @candidates x' y d' state first' second some count length size each =>
    cases first'.symm.trans first
    obtain rfl : n = state.length := by exact_mod_cast value.truncate.symm.trans count
    obtain ⟨y', here, own⟩ := lengths 0 (List.length_pos_of_ne_nil some)
    rw [Nat.zero_mul] at here
    cases here.symm.trans second
    obtain rfl : d = d' := by exact_mod_cast own.truncate.symm.trans length
    refine ⟨⟨x, first, value⟩, by simpa using some, ?_⟩
    rintro _ ⟨⟩ i c there
    have below := (List.getElem?_eq_some_iff.mp there).1
    rw [length_model size below (each i c there)]
    exact lengths i below

end

theorem conclude_cons_ne (s : Search Float) (first : Candidate Float)
    (rest : List (Candidate Float)) :
    s.machine.conclude (some (first :: rest)) ≠ .error .outOfRange := by
  intro failed
  by_cases rows : first.rows = 0
  · change s.result (first :: rest) = _ at failed
    simp only [result, if_pos rows] at failed
    cases failed
  obtain ⟨losses, penalized⟩ := s.exists_penalized (first :: rest)
  rcases found : lowest? id (losses.map Scalar.finite?) with _ | least
  · cases (conclude_of_none rows penalized found).symm.trans failed
  · obtain ⟨best, -, done⟩ := conclude_of_found rows penalized found
    cases done.symm.trans failed

theorem Reads.conclude_iff {cells : List Float} {state : List (Candidate Float)} {x : Float}
    (reads : Reads cells (some state)) (first : cells[0]? = some x) (s : Search Float) :
    s.machine.conclude (some state) = .error .outOfRange ↔ Scalar.truncate x < 0 := by
  cases reads with
  | hollow first' _ negative =>
    cases first'.symm.trans first
    exact iff_of_true rfl negative
  | candidates first' _ some count =>
    cases first'.symm.trans first
    obtain ⟨c, rest, rfl⟩ := List.exists_cons_of_ne_nil some
    exact iff_of_false (conclude_cons_ne s c rest) (by omega)

theorem announced_iff_counted {cells : List Float}
    (finite : ∀ x ∈ cells, Scalar.isFinite x = true) :
    (∀ outcome, ofCells cells = .ok outcome ↔ Reads cells outcome) ∧
      (∀ outcome, ofCells cells = .ok outcome → (Announced cells outcome ↔ Counted cells)) ∧
      ∀ state, ofCells cells = .ok (some state) → ∀ (s : Search Float) (x : Float),
        cells[0]? = some x →
        (s.machine.conclude (some state) = .error .outOfRange ↔ Scalar.truncate x < 0) := by
  refine ⟨fun outcome => ofCells_eq_ok_iff finite, fun outcome read => ?_,
    fun state read s x first => ?_⟩
  · have reads := reads_of_read finite read
    exact ⟨reads.counted, reads.announced⟩
  · exact (reads_of_read finite read).conclude_iff first s

def pairCells : List Float := [2, 1, 0.5, 3, 4, 7, 1, 0.25, 2, 4, -9]

theorem announced_iff_counted_pair :
    (∀ x ∈ pairCells, Scalar.isFinite x = true) ∧ Counted pairCells ∧
      ∃ state, ofCells pairCells = .ok (some state) ∧ state.length = 2 ∧
        Announced pairCells (some state) := by
  have finite : ∀ x ∈ pairCells, Scalar.isFinite x = true := by decide +kernel
  have one : Double.HasValue 1 (1 : Int) := Double.holds_ofNat (n := 1) (by decide)
  have two : Double.HasValue 2 (2 : Int) := Double.holds_ofNat (n := 2) (by decide)
  have counted : Counted pairCells := by
    refine ⟨2, 1, 2, rfl, two, fun i below => ?_⟩
    obtain rfl | rfl : i = 0 ∨ i = 1 := by omega
    · exact ⟨1, rfl, one⟩
    · exact ⟨1, rfl, one⟩
  have length : (ofCells pairCells).toOption.join.map List.length = some 2 := by decide +kernel
  obtain ⟨state, read, length⟩ := Option.map_eq_some_iff.mp length
  have done := eq_ok_of_join read
  obtain ⟨-, announced, -⟩ := announced_iff_counted finite
  exact ⟨finite, counted, state, done, length, (announced _ done).mpr counted⟩

def negativeCells : List Float := [-1, -5]

theorem negative_counts_pass :
    (∀ x ∈ negativeCells, Scalar.isFinite x = true) ∧ ofCells negativeCells = .ok (some []) ∧
      ¬ Announced negativeCells (some []) ∧
      ∀ s : Search Float, s.machine.conclude (some []) = .error .outOfRange := by
  have finite : ∀ x ∈ negativeCells, Scalar.isFinite x = true := by decide +kernel
  have count : Scalar.truncate (-1 : Float) = -1 := by decide +kernel
  have dimension : Scalar.truncate (-5 : Float) = -5 := by decide +kernel
  have reads : Reads negativeCells (some []) := by
    refine .hollow rfl rfl (by rw [count]; decide) ?_
    rw [count, dimension]
    rfl
  refine ⟨finite, reads.read finite, fun announced => announced.nonempty [] rfl rfl, fun s => rfl⟩

end Search

end Passwise
