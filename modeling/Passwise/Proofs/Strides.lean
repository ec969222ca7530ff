import Passwise.Proofs.Layout
import Passwise.Search.Cells

set_option autoImplicit false

namespace Passwise

namespace Candidate

structure Storable (d : Nat) (c : Candidate Float) : Prop where
  model : c.model.length = d
  stepsize : ∀ x ∈ c.stepsize, Scalar.isNaN x = false
  rows : Double.Holds c.rows

variable {d : Nat} {c : Candidate Float}

theorem toCells_eq (c : Candidate Float) :
    c.toCells = Scalar.ofNat c.model.length :: c.stepsize.getD Scalar.missing :: c.loss ::
      Scalar.ofInt c.rows :: c.model :=
  List.map_id _

theorem Storable.length_toCells (storable : c.Storable d) : c.toCells.length = 4 + d := by
  rw [toCells_eq, ← storable.model]
  simp only [List.length_cons]
  omega

theorem Storable.read (storable : c.Storable d) : ofCells c.toCells = .ok c := by
  have stepsize : scalarCell? (c.stepsize.getD Scalar.missing) = c.stepsize :=
    (scalarCell?_getD _).trans (bind_scalarCell? storable.stepsize)
  rw [toCells_eq, ofCells]
  change (wholeCell (Scalar.ofInt c.rows : Float) >>= fun rows => _) = _
  rw [storable.rows.wholeCell, ok_bind, stepsize]
  rfl

end Candidate

namespace Search

structure Storable (d : Nat) (state : List (Candidate Float)) : Prop where
  nonempty : state ≠ []
  dimension : Double.Holds d
  count : Double.Holds state.length
  each : ∀ c ∈ state, c.Storable d

variable {d : Nat} {state : List (Candidate Float)}

theorem length_flatMap_toCells (each : ∀ c ∈ state, c.Storable d) :
    (state.flatMap Candidate.toCells).length = state.length * (4 + d) := by
  induction state with
  | nil => simp
  | cons c state ih =>
    have rest := ih fun other member => each other (by simp [member])
    rw [List.flatMap_cons, List.length_append, (each c (by simp)).length_toCells, rest,
      List.length_cons, Nat.succ_mul, Nat.add_comm]

theorem toCells_eq (state : List (Candidate Float)) :
    toCells (some state) = Scalar.ofNat state.length :: state.flatMap Candidate.toCells := rfl

theorem front_toCells (state : List (Candidate Float)) (i : Fin state.length) :
    (Scalar.ofNat state.length :: (state.take i).flatMap Candidate.toCells) ++
      (state.get i).toCells <+: toCells (some state) := by
  have parts : state = state.take i ++ state.get i :: state.drop (i + 1) := by simp
  refine ⟨(state.drop (i + 1)).flatMap Candidate.toCells, ?_⟩
  have cells : state.flatMap Candidate.toCells = (state.take i).flatMap Candidate.toCells ++
      ((state.get i).toCells ++ (state.drop (i + 1)).flatMap Candidate.toCells) := by
    rw [← List.flatMap_cons, ← List.flatMap_append, ← parts]
  rw [toCells_eq, cells, List.append_assoc, List.cons_append]

theorem ofCells_zero : ofCells ([0] : List Float) = .ok none := by
  have first : cellAt ([0] : List Float) 0 = .ok (Scalar.ofNat 0) := rfl
  rw [ofCells, first, ok_bind, Double.wholeCell_ofNat (by decide), ok_bind,
    if_pos Int.natCast_zero, pure_ok]

namespace Storable

theorem length_toCells (storable : Storable d state) :
    (toCells (some state)).length = 1 + state.length * (4 + d) := by
  rw [toCells_eq, List.length_cons, length_flatMap_toCells storable.each, Nat.add_comm]

theorem read_candidate (storable : Storable d state) (i : Fin state.length) :
    Candidate.ofCells (((toCells (some state)).drop (1 + i * (4 + d))).take (4 + d)) =
      .ok (state.get i) := by
  have own := storable.each _ (List.get_mem state i)
  have place : (Scalar.ofNat state.length :: (state.take i).flatMap Candidate.toCells :
      List Float).length = 1 + i * (4 + d) := by
    rw [List.length_cons, length_flatMap_toCells fun c member =>
      storable.each c (List.mem_of_mem_take member), List.length_take_of_le i.isLt.le, Nat.add_comm]
  have block := take_of_prefix (front_toCells state i) place own.length_toCells
  rw [block]
  exact own.read

theorem cellAt_dimension (storable : Storable d state) :
    cellAt (toCells (some state)) 1 = .ok (Scalar.ofNat d) := by
  obtain ⟨first, rest, rfl⟩ := List.exists_cons_of_ne_nil storable.nonempty
  rw [toCells_eq, List.flatMap_cons, Candidate.toCells_eq, (storable.each first (by simp)).model]
  rfl

theorem read (storable : Storable d state) :
    ofCells (toCells (some state)) = .ok (some state) := by
  have size := storable.length_toCells
  have some : (state.length : Int) ≠ 0 := by simpa using storable.nonempty
  have fits : (((toCells (.some state)).length : Int) !=
      1 + (state.length : Int) * (4 + (d : Int))) = false := by
    rw [size]
    simp
  have width : ((4 : Int) + d).toNat = 4 + d := by omega
  have dimension : wholeCell (Scalar.ofNat d : Float) = .ok (d : Int) :=
    storable.dimension.wholeCell
  unfold ofCells
  rw [toCells_eq]
  change (wholeCell (Scalar.ofInt state.length : Float) >>= fun count => _) = _
  rw [storable.count.wholeCell, ok_bind, if_neg some, ← toCells_eq, storable.cellAt_dimension,
    ok_bind, dimension, ok_bind]
  dsimp only
  rw [fits, if_neg Bool.false_ne_true, width, Int.toNat_natCast,
    mapM_range_ok storable.read_candidate, ok_bind]
  rfl

end Storable

theorem ofCells_of_toCells {state : Option (List (Candidate Float))}
    (storable : ∀ candidates ∈ state, Storable d candidates) :
    ofCells (toCells state) = .ok state ∧
      (toCells state).length = 1 + state.elim 0 List.length * (4 + d) ∧
      ∀ s : Search Float,
        (ofCells (toCells state) >>= s.machine.conclude) = s.machine.conclude state := by
  have read : ofCells (toCells state) = .ok state := by
    cases state with
    | none => exact ofCells_zero
    | some candidates => exact (storable candidates rfl).read
  refine ⟨read, ?_, fun s => by rw [read, ok_bind]⟩
  cases state with
  | none => simp [toCells]
  | some candidates => exact (storable candidates rfl).length_toCells

def uneven : List (Candidate Float) :=
  [⟨[0, -0], some 0, 0 / 0, 0⟩, ⟨[1.5, -2], none, 1 / 0, 9007199254740994⟩]

theorem ofCells_of_toCells_uneven :
    Storable 2 uneven ∧ ofCells (toCells (some uneven)) = .ok (some uneven) ∧
      (toCells (some uneven)).length = 13 := by
  have two : Double.Holds 2 := Double.holds_ofNat (n := 2) (by decide)
  have rows : Double.Holds 9007199254740994 := ⟨⟨false, 4503599627370497, 1⟩, by rfl, by
    rw [Double.value_dyadic]
    norm_num⟩
  have zero : Scalar.isNaN (0 : Float) = false := by decide +kernel
  have each : ∀ c ∈ uneven, c.Storable 2 := by
    rw [uneven, List.forall_mem_cons, List.forall_mem_singleton]
    exact ⟨⟨rfl, by simpa using zero, Double.holds_ofNat (n := 0) (by decide)⟩,
      ⟨rfl, by simp, rows⟩⟩
  have storable : Storable 2 uneven := ⟨by simp [uneven], two, two, each⟩
  have every : ∀ candidates ∈ some uneven, Storable 2 candidates := by simpa using storable
  obtain ⟨read, length, -⟩ := ofCells_of_toCells every
  exact ⟨storable, read, length⟩

end Search

end Passwise
