import Passwise.Proofs.Exact
import Passwise.Proofs.Update
import Passwise.Linear.Matrix

set_option autoImplicit false

namespace Passwise

variable {α : Type} {d : Nat}

namespace Vec

def of (f : Fin d → α) : Vec α := List.ofFn f

@[simp] theorem length_of (f : Fin d → α) : (of f).length = d := List.length_ofFn

theorem of_injective : Function.Injective (of : (Fin d → α) → Vec α) := List.ofFn_injective

theorem zipWith_of (op : α → α → α) (f g : Fin d → α) :
    List.zipWith op (of f) (of g) = of fun i => op (f i) (g i) := by
  apply List.ext_getElem
  · simp [of]
  · intro i hl hr
    simp [of]

theorem map_of {β : Type} (op : α → β) (f : Fin d → α) :
    (of f).map op = of fun i => op (f i) := by
  simp [of, List.map_ofFn, Function.comp_def]

theorem combine_of (op : α → α → α) (f g : Fin d → α) :
    combine op (of f) (of g) = .ok (of fun i => op (f i) (g i)) := by
  rw [combine_of_length_eq op (by simp), zipWith_of]

variable [Exact α]

def entries (d : Nat) (v : Vec α) : Fin d → α := fun i => v.getD i 0

@[simp] theorem entries_of (f : Fin d → α) : entries d (of f) = f := by
  funext i
  simp [entries, of]

theorem of_entries {v : Vec α} (h : v.length = d) : of (entries d v) = v := by
  apply List.ext_getElem
  · simp [h]
  · intro i hl hr
    simp [of, entries, hr]

theorem exists_of {v : Vec α} (size : v.length = d) : ∃ f : Fin d → α, v = of f :=
  ⟨_, (of_entries size).symm⟩

@[simp] theorem zeros_eq : (zeros d : Vec α) = of (0 : Fin d → α) := by
  apply List.ext_getElem
  · simp
  · intro i hl hr
    simp [zeros, of]

@[simp] theorem add_of (f g : Fin d → α) : add (of f) (of g) = of (f + g) := zipWith_of _ f g

@[simp] theorem sub_of (f g : Fin d → α) : sub (of f) (of g) = of (f - g) := zipWith_of _ f g

@[simp] theorem neg_of (f : Fin d → α) : neg (of f) = of (-f) := map_of _ f

@[simp] theorem scale_of (c : α) (f : Fin d → α) : scale c (of f) = of (c • f) := map_of _ f

@[simp] theorem div_of (c : α) (f : Fin d → α) : (of f).map (· / c) = of (c⁻¹ • f) := by
  rw [map_of]
  congr 1
  funext i
  exact div_eq_inv_mul (f i) c

@[simp] theorem dot_of (f g : Fin d → α) : dot (of f) (of g) = f ⬝ᵥ g := by
  rw [dot, zipWith_of, of, List.sum_ofFn]
  rfl

@[simp] theorem dot?_of (f g : Fin d → α) : dot? (of f) (of g) = .ok (f ⬝ᵥ g) := by
  rw [dot?_of_length_eq (by simp), dot_of]

@[simp] theorem add?_of (f g : Fin d → α) : add? (of f) (of g) = .ok (of (f + g)) :=
  combine_of _ f g

@[simp] theorem addTo_of (f g : Fin d → α) : addTo (of f) (of g) = .ok (of (f + g)) := by
  rw [addTo_of_length_eq (by simp), add_of]

end Vec

theorem dotProduct_self_nonneg [Exact α] (v : Fin d → α) : 0 ≤ v ⬝ᵥ v :=
  Finset.sum_nonneg fun i _ => mul_self_nonneg (v i)

theorem dotProduct_self_pos [Exact α] {v : Fin d → α} (moves : v ≠ 0) : 0 < v ⬝ᵥ v :=
  lt_of_le_of_ne (dotProduct_self_nonneg v) fun none => moves (dotProduct_self_eq_zero.mp none.symm)

namespace Mat

def of (m : Matrix (Fin d) (Fin d) α) : Mat α := Vec.of fun i => Vec.of (m i)

theorem map_of (op : Vec α → Vec α) (f : (Fin d → α) → Fin d → α) (m : Matrix (Fin d) (Fin d) α)
    (rows : ∀ v, op (Vec.of v) = Vec.of (f v)) : (of m).map op = of fun i => f (m i) := by
  rw [of, Vec.map_of]
  exact congrArg Vec.of (funext fun i => rows (m i))

theorem zipWith_of (op : Vec α → Vec α → Vec α) (f : (Fin d → α) → (Fin d → α) → Fin d → α)
    (m n : Matrix (Fin d) (Fin d) α) (rows : ∀ u v, op (Vec.of u) (Vec.of v) = Vec.of (f u v)) :
    List.zipWith op (of m) (of n) = of fun i => f (m i) (n i) := by
  rw [of, of, Vec.zipWith_of]
  exact congrArg Vec.of (funext fun i => rows (m i) (n i))

theorem mapM_zip_of (op : Vec α → Vec α → Except Error (Vec α))
    (f : (Fin d → α) → (Fin d → α) → Fin d → α) (m n : Matrix (Fin d) (Fin d) α)
    (rows : ∀ u v, op (Vec.of u) (Vec.of v) = .ok (Vec.of (f u v))) :
    ((of m).zip (of n)).mapM (fun (u, v) => op u v) = .ok (of fun i => f (m i) (n i)) := by
  have pairs : (of m).zip (of n) = List.ofFn fun i => (Vec.of (m i), Vec.of (n i)) := by
    apply List.ext_getElem
    · simp [of, Vec.of]
    · intro i hl hr
      simp [of, Vec.of]
  rw [pairs]
  exact mapM_ofFn_ok fun i => rows (m i) (n i)

variable [Exact α]

@[simp] theorem zeros_eq : (zeros d : Mat α) = of (0 : Matrix (Fin d) (Fin d) α) := by
  apply List.ext_getElem
  · simp [zeros, of]
  · intro i hl hr
    simp only [zeros, Vec.zeros_eq, List.getElem_replicate, of, Vec.of, List.getElem_ofFn]
    rfl

@[simp] theorem scale_of (c : α) (m : Matrix (Fin d) (Fin d) α) :
    scale c (of m) = of (c • m) :=
  map_of _ _ m (Vec.scale_of c)

@[simp] theorem div_of (c : α) (m : Matrix (Fin d) (Fin d) α) :
    (of m).map (fun row => row.map (· / c)) = of (c⁻¹ • m) :=
  map_of _ _ m (Vec.div_of c)

@[simp] theorem sub_of (m n : Matrix (Fin d) (Fin d) α) : sub (of m) (of n) = of (m - n) :=
  zipWith_of _ _ m n Vec.sub_of

@[simp] theorem zipWith_add_of (m n : Matrix (Fin d) (Fin d) α) :
    List.zipWith Vec.add (of m) (of n) = of (m + n) :=
  zipWith_of _ _ m n Vec.add_of

@[simp] theorem addTo_of (m n : Matrix (Fin d) (Fin d) α) :
    addTo (of m) (of n) = .ok (of (m + n)) := by
  unfold addTo
  rw [if_pos (by simp [of])]
  exact mapM_zip_of _ _ m n Vec.addTo_of

@[simp] theorem add?_of (m n : Matrix (Fin d) (Fin d) α) :
    add? (of m) (of n) = .ok (of (m + n)) := by
  unfold add? combine
  rw [if_pos (by simp [of])]
  exact mapM_zip_of _ _ m n Vec.add?_of

@[simp] theorem outer_of (f g : Fin d → α) :
    outer (Vec.of f) (Vec.of g) = of (Matrix.vecMulVec f g) := by
  rw [outer, Vec.map_of]
  exact congrArg Vec.of (funext fun i => Vec.scale_of (f i) g)

@[simp] theorem identity_eq : (identity d : Mat α) = of (1 : Matrix (Fin d) (Fin d) α) := by
  apply List.ext_getElem
  · simp [identity, of]
  · intro i hl hr
    apply List.ext_getElem
    · simp [identity, of, Vec.of]
    · intro j hl hr
      simp [identity, of, Vec.of, Matrix.one_apply]

end Mat

end Passwise
