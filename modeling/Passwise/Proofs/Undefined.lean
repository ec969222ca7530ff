import Passwise.Proofs.Candidates
import Passwise.Proofs.Differences

set_option autoImplicit false

namespace Passwise

open Float.Model Float.Model.UnpackedFloat

-- Doubles beside a softplus of one's own.
def Doubles (_softplus : Float → Float) : Type := Float

namespace Doubles

variable {softplus : Float → Float}

instance : Scalar (Doubles softplus) :=
  { (inferInstanceAs (Scalar Float) : Scalar (Doubles softplus)) with softplus := softplus }

instance : Scalar.Plain (Doubles softplus) := ⟨fun _ => rfl, fun _ => rfl, fun _ => rfl⟩

example : (inferInstance : Scalar (Doubles Double.softplus)) = (inferInstance : Scalar Float) := rfl

def parts (x : Doubles softplus) : UnpackedFloat := (x : Float).toModel.unpack

variable {x y : Doubles softplus}

theorem isNaN_iff : Scalar.isNaN x = true ↔ x.parts = .notANumber := Double.isNaN_iff

theorem isNaN_of_parts {u : UnpackedFloat} (parts : x.parts = (Float.Model.pack u).unpack)
    (undefined : u = .notANumber) : Scalar.isNaN x = true := by
  rw [isNaN_iff, parts, undefined, Double.unpack_pack_notANumber]

theorem isNaN_add (undefined : Scalar.isNaN x = true ∨ Scalar.isNaN y = true) :
    Scalar.isNaN (x + y) = true := by
  apply isNaN_of_parts (u := UnpackedFloat.add Format.binary64 x.parts y.parts) rfl
  rw [isNaN_iff, isNaN_iff] at undefined
  rcases undefined with left | right
  · rw [left]
    cases y.parts <;> rfl
  · rw [right]
    cases x.parts <;> rfl

theorem isNaN_sub_right (undefined : Scalar.isNaN y = true) : Scalar.isNaN (x - y) = true := by
  apply isNaN_of_parts (u := UnpackedFloat.sub Format.binary64 x.parts y.parts) rfl
  rw [isNaN_iff.mp undefined]
  cases x.parts <;> rfl

theorem isNaN_mul_right (undefined : Scalar.isNaN y = true) : Scalar.isNaN (x * y) = true := by
  apply isNaN_of_parts (u := UnpackedFloat.mul Format.binary64 x.parts y.parts) rfl
  rw [isNaN_iff.mp undefined]
  cases x.parts <;> rfl

theorem not_finite_of_isNaN (undefined : Scalar.isNaN x = true) : Scalar.isFinite x = false := by
  change x.parts.isFinite = false
  rw [isNaN_iff.mp undefined]
  rfl

def Positive (x : Doubles softplus) : Prop := Double.Unsigned x.parts ∧ x.parts ≠ .notANumber

theorem unpack_packComponents_ne {sign : Sign} {exponent : BitVec 11} {mantissa : BitVec 52}
    (number : exponent = -1#11 → mantissa = 0#52) :
    UnpackedFloat.unpack Format.binary64 (packComponents Format.binary64 sign exponent mantissa) ≠
      .notANumber := by
  unfold UnpackedFloat.unpack
  simp only [unpackExponent_packComponents, unpackMantissa_packComponents]
  split_ifs with all empty none zero
  · nofun
  · exact absurd (number all) empty
  · nofun
  · nofun
  · nofun

-- Only what is not a number is packed with all exponent bits and a mantissa.
theorem unpack_pack_ne {u : UnpackedFloat} (number : u ≠ .notANumber) :
    (Float.Model.pack u).unpack ≠ .notANumber := by
  change UnpackedFloat.unpack Format.binary64 (UnpackedFloat.pack Format.binary64 u) ≠ _
  cases u with
  | notANumber => exact absurd rfl number
  | infinity sign => exact unpack_packComponents_ne fun _ => rfl
  | zero sign => exact unpack_packComponents_ne nofun
  | finite sign m e positive =>
    unfold UnpackedFloat.pack
    dsimp only
    split_ifs with large normal
    · exact unpack_packComponents_ne fun _ => rfl
    · apply unpack_packComponents_ne
      intro all
      have field := congrArg BitVec.toNat all
      rw [BitVec.toNat_ofNat] at field
      change _ % 2048 = 2047 at field
      change ¬ 2048 ≤ _ + 1 at large
      omega
    · exact unpack_packComponents_ne nofun

theorem positive_zero : (0 : Doubles softplus).Positive := by
  have parts : (0 : Float).toModel.unpack = .zero .positive := by rfl
  change Double.Unsigned (0 : Float).toModel.unpack ∧ (0 : Float).toModel.unpack ≠ .notANumber
  rw [parts]
  exact ⟨rfl, nofun⟩

theorem Positive.add (left : x.Positive) (right : y.Positive) : (x + y).Positive := by
  suffices sum : Double.Unsigned (UnpackedFloat.add Format.binary64 x.parts y.parts) ∧
      UnpackedFloat.add Format.binary64 x.parts y.parts ≠ .notANumber from
    ⟨Double.unsigned_unpack_pack sum.1, unpack_pack_ne sum.2⟩
  obtain ⟨unsigned, number⟩ := left
  obtain ⟨unsigned', number'⟩ := right
  generalize x.parts = u at unsigned number ⊢
  generalize y.parts = v at unsigned' number' ⊢
  rcases u with _ | _ | _ | ⟨sign, m, e, positive⟩
  · cases unsigned
    rcases v with _ | _ | _ | ⟨sign', n, f, positive'⟩
    · cases unsigned'
      exact ⟨rfl, nofun⟩
    · exact absurd rfl number'
    · exact ⟨rfl, nofun⟩
    · exact ⟨rfl, nofun⟩
  · exact absurd rfl number
  · cases unsigned
    rcases v with _ | _ | _ | ⟨sign', n, f, positive'⟩
    · exact ⟨unsigned', nofun⟩
    · exact absurd rfl number'
    · cases unsigned'
      exact ⟨rfl, nofun⟩
    · exact ⟨unsigned', nofun⟩
  · cases unsigned
    rcases v with _ | _ | _ | ⟨sign', n, f, positive'⟩
    · exact ⟨unsigned', nofun⟩
    · exact absurd rfl number'
    · exact ⟨rfl, nofun⟩
    · cases unsigned'
      exact Double.normalize_positive ((decreaseExponent m e (min e f)).1 +
        (decreaseExponent n f (min e f)).1) (min e f)

theorem positive_of_lt (above : 0 < x) : x.Positive := by
  have zero : (0 : Float).toModel.unpack = .zero .positive := by rfl
  have order : (0 : Float).toModel.unpack.lt x.parts = true := Iff.mp decide_eq_true_iff above
  rw [zero] at order
  rw [Positive]
  generalize x.parts = u at order ⊢
  rcases u with ⟨_ | _⟩ | _ | ⟨_ | _⟩ | ⟨_ | _, m, e, positive⟩
  all_goals first | exact ⟨rfl, nofun⟩ | cases order

theorem positive_positivePart : (Scalar.positivePart x).Positive := by
  unfold Scalar.positivePart
  split_ifs with above
  · exact positive_of_lt above
  · exact positive_zero

end Doubles

def Example.Unscored {α : Type} [Scalar α] (model : Vec α) (e : Example α) : Prop :=
  ∃ score, Vec.dot? model e.features = .ok score ∧ Scalar.isNaN score = true

variable {softplus : Float → Float}

namespace Objective

variable {o : Objective} {model : Vec (Doubles softplus)} {e : Example (Doubles softplus)}
  {loss : Doubles softplus}

theorem isNaN_loss
    (keeps : ∀ t : Float, Scalar.isNaN t = true → Scalar.isNaN (softplus t) = true)
    (notHinge : o ≠ .svm) (unscored : e.Unscored model) (made : o.loss model e = .ok loss) :
    Scalar.isNaN loss = true := by
  obtain ⟨score, scored, undefined⟩ := unscored
  cases o with
  | svm => exact absurd rfl notHinge
  | cox => cases made
  | logistic =>
    obtain ⟨sign, -, made⟩ := bind_eq_ok.mp made
    rw [scored] at made
    cases made
    exact keeps _ (Doubles.isNaN_mul_right undefined)
  | ridge | lasso =>
    obtain ⟨_, same, made⟩ := bind_eq_ok.mp made
    obtain ⟨value, -, made⟩ := bind_eq_ok.mp made
    cases scored.symm.trans same
    cases made
    exact Doubles.isNaN_mul_right (Doubles.isNaN_sub_right undefined)

theorem positive_loss (made : svm.loss model e = .ok loss) : loss.Positive := by
  obtain ⟨sign, -, made⟩ := bind_eq_ok.mp made
  obtain ⟨score, -, made⟩ := bind_eq_ok.mp made
  cases made
  exact Doubles.positive_positivePart

end Objective

namespace Search

variable {s : Search (Doubles softplus)}

def Shows (model : Vec (Doubles softplus)) (xs : List (Example (Doubles softplus)))
    (total : Doubles softplus) : Prop :=
  (∃ e ∈ xs, e.Unscored model) → Scalar.isNaN total = true

theorem sums_shows
    (keeps : ∀ t : Float, Scalar.isNaN t = true → Scalar.isNaN (softplus t) = true)
    (notHinge : s.task.objective ≠ .svm) : s.Sums Shows where
  none model := by simp [Shows]
  snoc model xs e total loss known made := by
    rintro ⟨x, member, unscored⟩
    apply Doubles.isNaN_add
    rcases List.mem_append.mp member with earlier | last
    · exact .inl (known ⟨x, earlier, unscored⟩)
    · obtain rfl := List.mem_singleton.mp last
      exact .inr (Objective.isNaN_loss keeps notHinge unscored made)
  append model xs ys total total' known known' := by
    rintro ⟨x, member, unscored⟩
    apply Doubles.isNaN_add
    exact (List.mem_append.mp member).imp (fun left => known ⟨x, left, unscored⟩)
      fun right => known' ⟨x, right, unscored⟩

theorem result_shows {xs : List (Example (Doubles softplus))}
    {state : List (Candidate (Doubles softplus))} (carried : s.Carried Shows xs state)
    (taken : xs ≠ []) :
    s.result state = .error .noFiniteLoss ∨
      ∃ w, s.result state = .ok (some w) ∧ s.models[w.index]? = some w.model ∧
        ∀ e ∈ xs, ¬ e.Unscored w.model := by
  obtain ⟨losses, -, each, verdict⟩ := carried.result taken
  generalize s.result state = result at verdict ⊢
  cases verdict with
  | unscored _ => exact .inl rfl
  | @won w model _ place finite =>
    refine .inr ⟨w, rfl, model, fun e member unscored => ?_⟩
    obtain ⟨c, here, penalty, total⟩ := getElem?_forall₂ each.flip place
    obtain ⟨c', here', -, -, shows⟩ := getElem?_forall₂ carried.each model
    obtain rfl : c = c' := by simpa using here.symm.trans here'
    have undefined : Scalar.isNaN w.loss = true := by
      rw [total]
      exact Doubles.isNaN_add (.inl (shows ⟨e, member, unscored⟩))
    rw [Doubles.not_finite_of_isNaN undefined] at finite
    cases finite

theorem sums_positive (hinge : s.task.objective = .svm) :
    s.Sums fun _ _ total => total.Positive where
  none _ := Doubles.positive_zero
  snoc _ _ _ _ _ known made := known.add (Objective.positive_loss (hinge ▸ made))
  append _ _ _ _ _ known known' := known.add known'

theorem unscored_never_wins
    (keeps : ∀ t : Float, Scalar.isNaN t = true → Scalar.isNaN (softplus t) = true)
    (s : Search (Doubles softplus)) (shape : Shape)
    (parts : List (List (Example (Doubles softplus)))) :
    (s.task.objective ≠ .svm →
      (∀ winner, s.machine.run shape parts = .ok (some winner) →
        s.models[winner.index]? = some winner.model ∧
          ∀ e ∈ parts.flatten, ¬ e.Unscored winner.model) ∧
      ((∀ e ∈ parts.flatten, e.Alike s.task.dimension false) →
        (∀ model ∈ s.models, ∃ e ∈ parts.flatten, e.Unscored model) →
        s.machine.run shape parts = .error .noFiniteLoss)) ∧
    (s.task.objective = .svm → ∀ state, s.machine.gathered shape parts = .ok (some state) →
      ∀ c ∈ state, Scalar.isNaN c.loss = false) := by
  refine ⟨fun notHinge => ?_, fun hinge state ended c member => ?_⟩
  · have sums := sums_shows keeps notHinge
    constructor
    · intro winner done
      rcases (tells sums).run_ok done with ⟨-, ⟨⟩⟩ | ⟨taken, state, carried, done⟩
      rcases result_shows carried taken with failed | ⟨w, won, model, scored⟩
      · cases failed.symm.trans done
      · obtain rfl : w = winner := by simpa using won.symm.trans done
        exact ⟨model, scored⟩
    · intro alike all
      have nonempty : parts.flatten ≠ [] := by
        obtain ⟨e, member, -⟩ := all _ (List.getElem_mem s.nonempty)
        exact List.ne_nil_of_mem member
      obtain ⟨state, -, carried, ran⟩ := (follows sums).run_eq shape alike nonempty
      rcases result_shows carried nonempty with failed | ⟨w, -, model, scored⟩
      · exact ran.trans failed
      · obtain ⟨e, member, unscored⟩ := all w.model (List.mem_of_getElem? model)
        exact absurd unscored (scored e member)
  · have stands := (tells (sums_positive hinge)).stands_of_gathered ended
    obtain ⟨model, -, -, -, positive⟩ := exists_of_forall₂ stands.2.each member
    rw [← Bool.not_eq_true, Doubles.isNaN_iff]
    exact positive.2

def found? {α : Type} [Scalar α] (s : Search α) (part : List (Example α)) : Option (Winner α) :=
  (s.machine.run .tree [part]).toOption.join

end Search

namespace Overflow

def logTwo (t : Float) : Float := if Scalar.isNaN t then t else 0.6931471805599453

theorem isAdmissible_one : Scalar.isAdmissible (1 : Float) = true := by decide +kernel

theorem isAdmissible_zero : Scalar.isAdmissible (0 : Float) = true := by decide +kernel

def task : Task (Doubles logTwo) :=
  ⟨2, .logistic, 1, 0, Nat.two_pos, isAdmissible_one, isAdmissible_zero⟩

def far : Example (Doubles logTwo) := ⟨([1e308, 1e308] : List Float), .plain 1⟩

def steep : Vec (Doubles logTwo) := ([2, -2] : List Float)

def both : Search (Doubles logTwo) :=
  ⟨task, [steep, [0, 0]], none, by decide, nofun, rfl, by decide⟩

def alone : Search (Doubles logTwo) :=
  ⟨task, [steep], none, by decide, nofun, rfl, by decide⟩

theorem unscored_steep : far.Unscored steep := ⟨Vec.dot steep far.features, rfl, by decide +kernel⟩

theorem unscored_never_wins_overflow :
    both.task.objective ≠ .svm ∧ far.Unscored steep ∧ steep ∈ both.models ∧
      (∃ winner, both.machine.run .tree [[far]] = .ok (some winner) ∧
        ¬ far.Unscored winner.model) ∧
      alone.machine.run .tree [[far]] = .error .noFiniteLoss := by
  have keeps : ∀ t : Float, Scalar.isNaN t = true → Scalar.isNaN (logTwo t) = true := by
    intro t undefined
    rwa [logTwo, if_pos undefined]
  have notHinge : both.task.objective ≠ .svm := by decide
  obtain ⟨winner, found⟩ : ∃ winner, both.found? [far] = some winner :=
    Option.isSome_iff_exists.mp (by decide +kernel)
  have ran := eq_ok_of_join found
  refine ⟨notHinge, unscored_steep, by simp [both], ⟨winner, ran, ?_⟩, ?_⟩
  · have scored := ((Search.unscored_never_wins keeps both .tree [[far]]).1 notHinge).1 winner ran
    exact scored.2 far (by simp)
  · refine ((Search.unscored_never_wins keeps alone .tree [[far]]).1 notHinge).2 ?_ ?_
    · rintro e member
      obtain rfl : e = far := by simpa using member
      exact ⟨rfl, rfl⟩
    · rintro model member
      obtain rfl : model = steep := by simpa [alone] using member
      exact ⟨far, by simp, unscored_steep⟩

theorem unscored_wins_hinge :
    let hinge : Search Float :=
      ⟨⟨1, .svm, 1, 0, Nat.one_pos, isAdmissible_one, isAdmissible_zero⟩, [[0]], none, by decide,
        nofun, rfl, by decide⟩
    let blank : Example Float := ⟨[0 / 0], .plain 1⟩
    (∀ model ∈ hinge.models, blank.Unscored model) ∧
      ∃ winner, hinge.machine.run .tree [[blank]] = .ok (some winner) ∧ winner.index = 0 ∧
        (winner.loss == 0) = true := by
  intro hinge blank
  constructor
  · intro model member
    obtain rfl : model = [0] := by simpa [hinge] using member
    exact ⟨Vec.dot [0] blank.features, rfl, by decide +kernel⟩
  · obtain ⟨winner, found⟩ : ∃ winner, hinge.found? [blank] = some winner :=
      Option.isSome_iff_exists.mp (by decide +kernel)
    have index : (hinge.found? [blank]).map (·.index) = some 0 := by decide +kernel
    have loss : (hinge.found? [blank]).map (·.loss == 0) = some true := by decide +kernel
    rw [found] at index loss
    exact ⟨winner, eq_ok_of_join found, Option.some.inj index, Option.some.inj loss⟩

end Overflow

end Passwise
