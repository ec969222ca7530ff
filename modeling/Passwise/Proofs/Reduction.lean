import Mathlib.Data.List.Forall2
import Passwise.Machine

set_option autoImplicit false

namespace Passwise

namespace Shape

variable {β γ : Type} {merge : β → β → Except Error β} {merge' : γ → γ → Except Error γ}

def Respects (R : β → γ → Prop) (merge : β → β → Except Error β)
    (merge' : γ → γ → Except Error γ) : Prop :=
  ∀ a b a' b', R a a' → R b b' →
    ∃ c c', merge a b = .ok c ∧ merge' a' b' = .ok c' ∧ R c c'

theorem length_lt_two {values : List β} (short : ∀ a b rest, values = a :: b :: rest → False) :
    values.length < 2 := by
  match values, short with
  | [], _ => simp
  | [_], _ => simp
  | a :: b :: rest, short => exact (short a b rest rfl).elim

theorem pairUp_short {values : List β} (few : values.length < 2) :
    pairUp merge values = .ok values := by
  match values, few with
  | [], _ => rfl
  | [_], _ => rfl
  | _ :: _ :: _, few =>
    simp only [List.length_cons] at few
    omega

variable {R : β → γ → Prop}

theorem pairUp_related (respects : Respects R merge merge') {values : List β} {values' : List γ}
    (related : List.Forall₂ R values values') :
    ∃ paired paired', pairUp merge values = .ok paired ∧ pairUp merge' values' = .ok paired' ∧
      List.Forall₂ R paired paired' := by
  induction values using pairUp.induct generalizing values' with
  | case1 a b rest ih =>
    obtain _ | ⟨ha, _ | ⟨hb, others⟩⟩ := related
    obtain ⟨c, c', done, done', hc⟩ := respects _ _ _ _ ha hb
    obtain ⟨paired, paired', rest, rest', later⟩ := ih others
    refine ⟨c :: paired, c' :: paired', ?_, ?_, .cons hc later⟩
    · simp only [pairUp, done, rest]
      rfl
    · simp only [pairUp, done', rest']
      rfl
  | case2 values short =>
    have few := length_lt_two short
    exact ⟨values, values', pairUp_short few, pairUp_short (related.length_eq ▸ few), related⟩

theorem pairwise_related (respects : Respects R merge merge') (rounds : Nat) {values : List β}
    {values' : List γ} (related : List.Forall₂ R values values') :
    ∃ value value', pairwise merge rounds values = .ok value ∧
      pairwise merge' rounds values' = .ok value' ∧ Option.Rel R value value' := by
  induction rounds generalizing values values' with
  | zero => cases related with
    | nil => exact ⟨none, none, rfl, rfl, .none⟩
    | cons h _ => exact ⟨_, _, rfl, rfl, .some h⟩
  | succ rounds ih =>
    match related with
    | .nil => exact ⟨none, none, rfl, rfl, .none⟩
    | .cons h .nil => exact ⟨_, _, rfl, rfl, .some h⟩
    | .cons ha (.cons hb others) =>
      obtain ⟨paired, paired', done, done', later⟩ :=
        pairUp_related respects (.cons ha (.cons hb others))
      obtain ⟨value, value', rest, rest', end_⟩ := ih later
      refine ⟨value, value', ?_, ?_, end_⟩
      · simp only [pairwise, done]
        exact rest
      · simp only [pairwise, done']
        exact rest'

theorem foldlM_related (respects : Respects R merge merge') {first : β} {first' : γ}
    {values : List β} {values' : List γ} (start : R first first')
    (related : List.Forall₂ R values values') :
    ∃ value value', values.foldlM merge first = .ok value ∧
      values'.foldlM merge' first' = .ok value' ∧ R value value' := by
  induction related generalizing first first' with
  | nil => exact ⟨first, first', rfl, rfl, start⟩
  | cons h _ ih =>
    obtain ⟨c, c', done, done', hc⟩ := respects _ _ _ _ start h
    obtain ⟨value, value', rest, rest', end_⟩ := ih hc
    refine ⟨value, value', ?_, ?_, end_⟩
    · rw [List.foldlM_cons, done]
      exact rest
    · rw [List.foldlM_cons, done']
      exact rest'

theorem reduce_related (respects : Respects R merge merge') (shape : Shape) {values : List β}
    {values' : List γ} (related : List.Forall₂ R values values') :
    ∃ value value', shape.reduce merge values = .ok value ∧
      shape.reduce merge' values' = .ok value' ∧ Option.Rel R value value' := by
  cases shape with
  | tree =>
    rw [reduce, reduce, ← related.length_eq]
    exact pairwise_related respects _ related
  | sequential => cases related with
    | nil => exact ⟨none, none, rfl, rfl, .none⟩
    | cons h others =>
      obtain ⟨value, value', done, done', end_⟩ := foldlM_related respects h others
      refine ⟨some value, some value', ?_, ?_, .some end_⟩
      · simp only [reduce, done]
        rfl
      · simp only [reduce, done']
        rfl

def append (xs ys : List β) : Except Error (List β) := .ok (xs ++ ys)

theorem pairUp_append (parts : List (List β)) :
    ∃ paired, pairUp append parts = .ok paired ∧ paired.flatten = parts.flatten ∧
      (paired = [] ↔ parts = []) ∧ paired.length ≤ (parts.length + 1) / 2 := by
  induction parts using pairUp.induct with
  | case1 a b rest ih =>
    obtain ⟨paired, done, same, _, short⟩ := ih
    refine ⟨(a ++ b) :: paired, ?_, by simp [same], by simp, by simp; omega⟩
    simp only [pairUp, append, done]
    rfl
  | case2 parts short =>
    have few := length_lt_two short
    refine ⟨parts, pairUp_short few, rfl, Iff.rfl, ?_⟩
    omega

theorem pairwise_append (rounds : Nat) (parts : List (List β)) (enough : parts.length ≤ rounds) :
    pairwise append rounds parts = .ok (if parts = [] then none else some parts.flatten) := by
  induction rounds generalizing parts with
  | zero => simp_all [pairwise]
  | succ rounds ih =>
    match parts, enough with
    | [], _ => rfl
    | [a], _ => simp [pairwise]
    | a :: b :: rest, enough =>
      -- A round leaves at most half of the parts, so one round less is enough for them.
      obtain ⟨paired, done, same, empty, short⟩ := pairUp_append (a :: b :: rest)
      simp only [List.length_cons] at short enough
      simp only [pairwise, done]
      refine (ih paired (by omega)).trans ?_
      simp [same, empty]

theorem foldlM_append (first : List β) (parts : List (List β)) :
    parts.foldlM append first = .ok (first ++ parts.flatten) := by
  induction parts generalizing first with
  | nil => simp [pure, Except.pure]
  | cons part parts ih =>
    rw [List.foldlM_cons, append]
    refine (ih _).trans ?_
    simp

theorem reduce_append (shape : Shape) (parts : List (List β)) :
    shape.reduce append parts = .ok (if parts = [] then none else some parts.flatten) := by
  cases shape with
  | tree => exact pairwise_append _ parts (Nat.le_refl _)
  | sequential => cases parts with
    | nil => rfl
    | cons first parts =>
      simp only [reduce, foldlM_append]
      rfl

end Shape

inductive MergeTree (β : Type) where
  | leaf (value : β)
  | node (left right : MergeTree β)

namespace MergeTree

variable {β : Type}

def leaves : MergeTree β → List β
  | leaf value => [value]
  | node left right => left.leaves ++ right.leaves

def eval (merge : β → β → Except Error β) : MergeTree β → Except Error β
  | leaf value => .ok value
  | node left right => do merge (← left.eval merge) (← right.eval merge)

end MergeTree

end Passwise
