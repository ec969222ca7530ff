import Passwise.Proofs.Coordinates
import Passwise.RiskSet

set_option autoImplicit false

namespace Passwise

open Matrix

variable {α : Type} [Exact α] {d : Nat}

namespace Example

def time (e : Example α) : α := e.label.number

def isDeath (e : Example α) : Bool :=
  match e.label with
  | .plain _ => false
  | .survival _ event => event

end Example

namespace Breslow

def died (rows : List (Example α)) : List (Example α) := rows.filter (·.isDeath)

def atRisk (rows : List (Example α)) (i : Example α) : List (Example α) :=
  rows.filter fun j => decide (i.time ≤ j.time)

variable (w : Fin d → α)

def point (e : Example α) : Fin d → α := Vec.entries d e.features

def score (e : Example α) : α := w ⬝ᵥ point e

def weight (e : Example α) : α := Scalar.exp (score w e)

def s0 (risk : List (Example α)) : α := (risk.map (weight w)).sum

def s1 (risk : List (Example α)) : Fin d → α := (risk.map fun j => weight w j • point j).sum

def s2 (risk : List (Example α)) : Matrix (Fin d) (Fin d) α :=
  (risk.map fun j => weight w j • vecMulVec (point j) (point j)).sum

def mean (risk : List (Example α)) : Fin d → α := (s0 w risk)⁻¹ • s1 w risk

def loss (rows : List (Example α)) : α :=
  -((died rows).map fun i => score w i - Scalar.log (s0 w (atRisk rows i))).sum

def gradient (rows : List (Example α)) : Fin d → α :=
  -((died rows).map fun i => point i - mean w (atRisk rows i)).sum

def hessian (rows : List (Example α)) : Matrix (Fin d) (Fin d) α :=
  ((died rows).map fun i =>
    (s0 w (atRisk rows i))⁻¹ • s2 w (atRisk rows i) -
      vecMulVec (mean w (atRisk rows i)) (mean w (atRisk rows i))).sum

def term (risk : List (Example α)) (i : Example α) : α × (Fin d → α) × Matrix (Fin d) (Fin d) α :=
  (-(score w i - Scalar.log (s0 w risk)), -(point i - mean w risk),
    (s0 w risk)⁻¹ • s2 w risk - vecMulVec (mean w risk) (mean w risk))

def groupTerms (risk group : List (Example α)) : α × (Fin d → α) × Matrix (Fin d) (Fin d) α :=
  ((died group).map (term w risk)).sum

def scored (before : List (Example α)) :
    List (List (Example α)) → α × (Fin d → α) × Matrix (Fin d) (Fin d) α
  | [] => 0
  | group :: rest => groupTerms w (before ++ group) group + scored (before ++ group) rest

theorem scored_snoc (before : List (Example α)) (groups : List (List (Example α)))
    (last : List (Example α)) :
    scored w before (groups ++ [last]) =
      scored w before groups + groupTerms w (before ++ groups.flatten ++ last) last := by
  induction groups generalizing before with
  | nil => simp [scored]
  | cons group rest ih => simp [scored, ih, add_assoc]

theorem groupTerms_eq (risk group : List (Example α)) :
    groupTerms w risk group =
      (-(((died group).map (score w)).sum - (died group).length * Scalar.log (s0 w risk)),
        -(((died group).map point).sum - ((died group).length : α) • mean w risk),
        ((died group).length : α) •
          ((s0 w risk)⁻¹ • s2 w risk - vecMulVec (mean w risk) (mean w risk))) := by
  unfold groupTerms term
  induction died group with
  | nil =>
    simp only [List.map_nil, List.sum_nil, List.length_nil, Nat.cast_zero, zero_mul, zero_smul,
      sub_zero, neg_zero]
    rfl
  | cons i rest ih =>
    rw [List.map_cons, List.sum_cons, ih]
    simp only [List.map_cons, List.sum_cons, List.length_cons, Nat.cast_succ, Prod.mk_add_mk,
      Prod.mk.injEq]
    refine ⟨by ring, ?_, ?_⟩
    · rw [add_smul, one_smul]
      abel
    · rw [add_smul, one_smul, add_comm]

theorem s0_pos (exp_pos : ∀ x : α, 0 < Scalar.exp x) {risk : List (Example α)}
    (someone : risk ≠ []) : 0 < s0 w risk := by
  refine List.sum_pos _ (fun x member => ?_) (by simpa using someone)
  obtain ⟨e, _, rfl⟩ := List.mem_map.mp member
  exact exp_pos _

omit [Exact α] in
theorem sum_pair {M N : Type} [AddCommMonoid M] [AddCommMonoid N] (f : Example α → M)
    (g : Example α → N) (rows : List (Example α)) :
    (rows.map fun i => (f i, g i)).sum = ((rows.map f).sum, (rows.map g).sum) := by
  induction rows with
  | nil => rfl
  | cons i rows ih => simp [ih]

theorem sum_terms (rows : List (Example α)) :
    ((died rows).map fun i => term w (atRisk rows i) i).sum =
      (loss w rows, gradient w rows, hessian w rows) := by
  simp only [term, sum_pair, loss, gradient, hessian, List.sum_neg, List.map_map]
  rfl

theorem term_perm {risk risk' : List (Example α)} (same : risk.Perm risk') (i : Example α) :
    term w risk i = term w risk' i := by
  have weights : s0 w risk = s0 w risk' := (same.map _).sum_eq
  have points : s1 w risk = s1 w risk' := (same.map _).sum_eq
  have outers : s2 w risk = s2 w risk' := (same.map _).sum_eq
  simp only [term, mean, weights, points, outers]

theorem sum_terms_perm {rows rows' : List (Example α)} (same : rows.Perm rows') :
    ((died rows).map fun i => term w (atRisk rows i) i).sum =
      ((died rows').map fun i => term w (atRisk rows' i) i).sum := by
  have risks (i : Example α) : term w (atRisk rows i) i = term w (atRisk rows' i) i :=
    term_perm w (same.filter _) i
  simp only [risks]
  exact ((same.filter _).map _).sum_eq

-- Later groups hold earlier times, and one group holds one time only.
structure Layered (groups : List (List (Example α))) : Prop where
  falling : groups.Pairwise fun older newer => ∀ a ∈ older, ∀ b ∈ newer, b.time < a.time
  level : ∀ group ∈ groups, ∀ a ∈ group, ∀ b ∈ group, a.time = b.time

theorem Layered.snoc {groups : List (List (Example α))} (layered : Layered groups)
    {group : List (Example α)} (level : ∀ a ∈ group, ∀ b ∈ group, a.time = b.time)
    (below : ∀ older ∈ groups, ∀ a ∈ older, ∀ b ∈ group, b.time < a.time) :
    Layered (groups ++ [group]) := by
  constructor
  · refine List.pairwise_append.mpr ⟨layered.falling, by simp, fun older member newer single => ?_⟩
    obtain rfl := List.mem_singleton.mp single
    exact below older member
  · intro other member
    rcases List.mem_append.mp member with old | single
    · exact layered.level other old
    · obtain rfl := List.mem_singleton.mp single
      exact level

theorem Layered.of_snoc {groups : List (List (Example α))} {group : List (Example α)}
    (layered : Layered (groups ++ [group])) : Layered groups where
  falling := (List.pairwise_append.mp layered.falling).1
  level other member := layered.level other (List.mem_append_left _ member)

theorem atRisk_eq_of_group {before group after : List (Example α)}
    (older : ∀ a ∈ before, ∀ b ∈ group, b.time < a.time)
    (level : ∀ a ∈ group, ∀ b ∈ group, a.time = b.time)
    (newer : ∀ a ∈ group, ∀ b ∈ after, b.time < a.time) {i : Example α} (member : i ∈ group) :
    atRisk (before ++ (group ++ after)) i = before ++ group := by
  have allBefore : before.filter (fun j => decide (i.time ≤ j.time)) = before :=
    List.filter_eq_self.mpr fun j inside => decide_eq_true (older j inside i member).le
  have allGroup : group.filter (fun j => decide (i.time ≤ j.time)) = group :=
    List.filter_eq_self.mpr fun j inside => decide_eq_true (level i member j inside).le
  have noneAfter : after.filter (fun j => decide (i.time ≤ j.time)) = [] :=
    List.filter_eq_nil_iff.mpr fun j inside => by simpa using newer i member j inside
  rw [atRisk, List.filter_append, List.filter_append, allBefore, allGroup, noneAfter,
    List.append_nil]

theorem scored_layered {groups : List (List (Example α))} (layered : Layered groups)
    {before : List (Example α)} (older : ∀ a ∈ before, ∀ b ∈ groups.flatten, b.time < a.time) :
    scored w before groups =
      ((died groups.flatten).map fun i => term w (atRisk (before ++ groups.flatten) i) i).sum := by
  induction groups generalizing before with
  | nil => rfl
  | cons group rest ih =>
    obtain ⟨first, falling⟩ := List.pairwise_cons.mp layered.falling
    have newer : ∀ a ∈ group, ∀ b ∈ rest.flatten, b.time < a.time := by
      intro a inGroup b inRest
      obtain ⟨other, member, inside⟩ := List.mem_flatten.mp inRest
      exact first other member a inGroup b inside
    have oldest : ∀ a ∈ before ++ group, ∀ b ∈ rest.flatten, b.time < a.time := by
      intro a inside b inRest
      rcases List.mem_append.mp inside with inBefore | inGroup
      · exact older a inBefore b (by simp_all)
      · exact newer a inGroup b inRest
    have later := ih ⟨falling, fun other member => layered.level other (by simp [member])⟩ oldest
    have own : groupTerms w (before ++ group) group =
        ((died group).map fun i =>
          term w (atRisk (before ++ (group ++ rest.flatten)) i) i).sum := by
      refine congrArg List.sum (List.map_congr_left fun i member => ?_)
      rw [atRisk_eq_of_group (fun a inBefore b inGroup => older a inBefore b (by simp [inGroup]))
        (layered.level group (by simp)) newer (List.mem_of_mem_filter member)]
    simp only [scored, later, own, List.flatten_cons, List.append_assoc, died, List.filter_append,
      List.map_append, List.sum_append]

end Breslow

end Passwise
