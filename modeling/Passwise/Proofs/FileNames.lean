import Mathlib
import Passwise.Command.Fit
import Passwise.Proofs.Update

set_option autoImplicit false

namespace Passwise

section Joining

theorem count_intercalate {α : Type} [DecidableEq α] (c : α) :
    ∀ {pieces : List (List α)}, pieces ≠ [] →
      ([c].intercalate pieces).count c + 1 = (pieces.map (·.count c)).sum + pieces.length
  | [], filled => absurd rfl filled
  | [piece], _ => by simp
  | piece :: next :: rest, _ => by
    have ih := count_intercalate c (List.cons_ne_nil next rest)
    simp only [List.intercalate_cons_cons, List.count_append, List.count_singleton_self,
      List.map_cons, List.sum_cons, List.length_cons] at ih ⊢
    omega

theorem pieces_eq {α : Type} [DecidableEq α] {c : α} {pieces others : List (List α)}
    (filled : pieces ≠ []) (count : pieces.length = others.length) (free : ∀ l ∈ others, c ∉ l)
    (joined : [c].intercalate pieces = [c].intercalate others) : pieces = others := by
  have filled' : others ≠ [] := by
    rintro rfl
    exact filled (List.length_eq_zero_iff.mp count)
  have free' : ∀ l ∈ pieces, c ∉ l := by
    have none : (others.map (·.count c)).sum = 0 := by
      simpa [List.sum_eq_zero_iff, List.count_eq_zero] using free
    have sum := count_intercalate c filled
    rw [joined, count_intercalate c filled', none] at sum
    have none' : (pieces.map (·.count c)).sum = 0 := by omega
    simpa [List.sum_eq_zero_iff, List.count_eq_zero] using none'
  rw [← List.splitOn_intercalate c free' filled, joined, List.splitOn_intercalate c free filled']

end Joining

namespace Text

def isPlain (c : Char) : Bool := c != '*' && c != '?' && c != '[' && c != '/'

def Plain (text : String) : Prop := text.toList.all isPlain = true

instance (text : String) : Decidable (Plain text) := inferInstanceAs (Decidable (_ = _))

theorem plain_append {front back : String} : Plain (front ++ back) ↔ Plain front ∧ Plain back := by
  rw [Plain, String.toList_append, List.all_append, Bool.and_eq_true, Plain, Plain]

theorem go_append {cs : List Char} (plain : cs.all isPlain = true) (fuel : Nat)
    (rest : List Char) :
    patternOf.go (cs.length + fuel) (cs ++ rest) =
      cs.map .character ++ patternOf.go fuel rest := by
  induction cs with
  | nil => simp
  | cons c cs ih =>
    obtain ⟨⟨⟨⟨star, mark⟩, bracket⟩, -⟩, plain⟩ : (((c ≠ '*' ∧ c ≠ '?') ∧ c ≠ '[') ∧ c ≠ '/') ∧
        cs.all isPlain = true := by
      simpa only [List.all_cons, isPlain, Bool.and_eq_true, bne_iff_ne] using plain
    have more : (c :: cs).length + fuel = (cs.length + fuel) + 1 := by
      rw [List.length_cons]
      omega
    rw [more, List.cons_append, List.map_cons, List.cons_append, ← ih plain]
    exact patternOf.go.eq_6 _ _ _ star mark bracket

theorem matchesAll_characters (cs : List Char) (rest : List Wildcard) (name : List Char) :
    matchesAll (cs.map .character ++ rest) name = true ↔
      ∃ tail, name = cs ++ tail ∧ matchesAll rest tail = true := by
  induction cs generalizing name with
  | nil => simp
  | cons c cs ih =>
    cases name with
    | nil => simp [matchesAll]
    | cons d name =>
      simp only [List.map_cons, List.cons_append, matchesAll, Wildcard.holds, Bool.and_eq_true,
        beq_iff_eq, ih, List.cons.injEq]
      grind

theorem matchesAll_star (rest : List Wildcard) (name : List Char) :
    matchesAll (.anyMany :: rest) name = true ↔
      ∃ skipped tail, name = skipped ++ tail ∧ matchesAll rest tail = true := by
  rw [matchesAll, List.any_eq_true]
  constructor
  · rintro ⟨n, -, fits⟩
    exact ⟨name.take n, name.drop n, (List.take_append_drop n name).symm, fits⟩
  · rintro ⟨skipped, tail, rfl, fits⟩
    refine ⟨skipped.length, List.mem_range.mpr ?_, ?_⟩
    · rw [List.length_append]
      omega
    · rwa [List.drop_left]

theorem matchesPattern_star {front back : String} (plain : Plain front) (plain' : Plain back)
    (name : String) : matchesPattern (front ++ "*" ++ back) name = true ↔
      ∃ skipped, name.toList = front.toList ++ skipped ++ back.toList := by
  have pattern : patternOf (front ++ "*" ++ back) =
      front.toList.map .character ++ .anyMany :: (back.toList.map .character ++ []) := by
    have nothing : patternOf.go 0 [] = [] := rfl
    have tail := go_append plain' 0 []
    rw [List.append_nil, Nat.add_zero, nothing] at tail
    have whole := go_append plain (back.toList.length + 1) ('*' :: back.toList)
    rw [patternOf.go, tail] at whole
    rw [patternOf, ← whole]
    simp
  rw [matchesPattern, pattern, matchesAll_characters]
  simp only [matchesAll_star, matchesAll_characters]
  simp [matchesAll, List.append_assoc]

end Text

namespace Archive

structure RunName where
  objective : Objective
  method : Method
  dataset : Dataset
  rows : Int
  dimension : Int
  dataSeed : Int
  seed : Int
  deriving DecidableEq, Repr

structure Request where
  objective : String
  dataset : String
  rows : Int
  dimension : Int

def Request.experiment (q : Request) : Experiment :=
  ⟨.text q.objective, .text q.dataset, .whole q.rows, .whole q.dimension⟩

namespace RunName

def request (r : RunName) : Request := ⟨r.objective.name, r.dataset.name, r.rows, r.dimension⟩

def fileName (r : RunName) : String :=
  baseName r.request.experiment (.text r.method.name) (toString r.dataSeed) (.whole r.seed) ++ ".csv"

structure Answers (r : RunName) (q : Request) (method : String) (seed : Int) : Prop where
  request : r.request = q
  method : r.method.name = method
  seed : r.seed = seed

end RunName

variable {q : Request} {method : String} {seed : Int}

def pieces (q : Request) (method : String) (dataSeed : List Char) (seed : Int) :
    List (List Char) := [
    q.objective.toList, method.toList, q.dataset.toList, 'm' :: (toString q.rows).toList,
    'd' :: (toString q.dimension).toList, "dataseed".toList ++ dataSeed,
    "seed".toList ++ (toString seed).toList ++ ".csv".toList
  ]

theorem toList_baseName (q : Request) (method dataSeed : String) (seed : Int) :
    (baseName q.experiment (.text method) dataSeed (.whole seed) ++ ".csv").toList =
      ['_'].intercalate (pieces q method dataSeed.toList seed) := by
  have itself (s : String) : toString s = s := rfl
  simp [baseName, pieces, Request.experiment, Literal.plainText, Literal.render,
    List.intercalate_cons_cons, itself]

theorem sign_or_digit (n : Int) : ∀ c ∈ (toString n).toList, c = '-' ∨ c.isDigit = true := by
  have digits (n : Nat) : ∀ c ∈ n.repr.toList, c.isDigit = true := by
    rw [Nat.toList_repr]
    exact fun c => Nat.isDigit_of_mem_toDigits (by decide) (by decide)
  intro c member
  cases n with
  | ofNat n => exact .inr (digits n c member)
  | negSucc n =>
    have parts : (toString (Int.negSucc n)).toList = '-' :: (n + 1).repr.toList := by
      simp [toString, Int.repr]
    rw [parts, List.mem_cons] at member
    exact member.imp_right (digits (n + 1) c)

theorem not_mem_toString {c : Char} (sign : c ≠ '-') (digit : c.isDigit = false) (n : Int) :
    c ∉ (toString n).toList := by
  intro member
  rcases sign_or_digit n c member with same | same
  · exact sign same
  · rw [digit] at same
    cases same

theorem plain_toString (n : Int) : Text.Plain (toString n) := by
  rw [Text.Plain, List.all_eq_true]
  intro c member
  have none (d : Char) (sign : d ≠ '-') (digit : d.isDigit = false) : c ≠ d := by
    rintro rfl
    exact not_mem_toString sign digit n member
  simp [Text.isPlain, none]

theorem underscore_free (r : RunName) :
    ∀ piece ∈ pieces r.request r.method.name (toString r.dataSeed).toList r.seed,
      '_' ∉ piece := by
  have number (n : Int) : '_' ∉ n.repr.toList := not_mem_toString (by decide) (by decide) n
  have objective : '_' ∉ r.objective.name.toList := by cases r.objective <;> decide
  have method : '_' ∉ r.method.name.toList := by cases r.method <;> decide
  have dataset : '_' ∉ r.dataset.name.toList := by cases r.dataset <;> decide
  simp [pieces, RunName.request, objective, method, dataset, number]

def beforeStar (q : Request) (method : String) : String :=
  q.objective ++ "_" ++ method ++ "_" ++ q.dataset ++ "_m" ++ toString q.rows ++ "_d" ++
    toString q.dimension ++ "_dataseed"

def afterStar (seed : Int) : String := "_seed" ++ toString seed ++ ".csv"

theorem pattern_eq (q : Request) (method : String) (seed : Int) :
    pattern q.experiment (.text method) (.whole seed) =
      beforeStar q method ++ "*" ++ afterStar seed := by
  have itself (s : String) : toString s = s := rfl
  rw [← String.toList_inj]
  simp [pattern, baseName, Request.experiment, Literal.plainText, Literal.render, itself,
    beforeStar, afterStar]

theorem around_star (q : Request) (method : String) (seed : Int) (skipped : List Char) :
    (beforeStar q method).toList ++ skipped ++ (afterStar seed).toList =
      ['_'].intercalate (pieces q method skipped seed) := by
  simp [beforeStar, afterStar, pieces, List.intercalate_cons_cons]

theorem plain_afterStar (seed : Int) : Text.Plain (afterStar seed) := by
  simp only [afterStar, Text.plain_append, plain_toString]
  decide

structure Request.Plain (q : Request) (method : String) : Prop where
  objective : Text.Plain q.objective
  method : Text.Plain method
  dataset : Text.Plain q.dataset

theorem Request.Plain.beforeStar (plain : q.Plain method) :
    Text.Plain (beforeStar q method) := by
  obtain ⟨objective, method, dataset⟩ := plain
  simp only [Archive.beforeStar, Text.plain_append, plain_toString, objective, method, dataset]
  decide

theorem request_eq_of_pieces {q q' : Request} {method method' : String} {seed seed' : Int}
    {dataSeed dataSeed' : List Char}
    (same : pieces q method dataSeed seed = pieces q' method' dataSeed' seed') :
    q = q' ∧ method = method' ∧ seed = seed' := by
  have number {m n : Int} (digits : m.repr = n.repr) : m = n := Int.repr_injective digits
  obtain ⟨objective, dataset, rows, dimension⟩ := q
  simp only [pieces, List.cons.injEq, String.toList_inj, List.append_cancel_left_eq,
    List.append_cancel_right_eq, true_and, and_true] at same
  obtain ⟨rfl, rfl, rfl, rows, dimension, -, seed⟩ := same
  obtain rfl := number rows
  obtain rfl := number dimension
  exact ⟨rfl, rfl, number seed⟩

theorem matches_iff (plain : q.Plain method) (seed : Int) (r : RunName) :
    Text.matchesPattern (pattern q.experiment (.text method) (.whole seed)) r.fileName = true ↔
      r.Answers q method seed := by
  rw [pattern_eq, Text.matchesPattern_star plain.beforeStar (plain_afterStar seed)]
  simp only [around_star, RunName.fileName, toList_baseName]
  constructor
  · rintro ⟨skipped, joined⟩
    have same : pieces q method skipped seed =
        pieces r.request r.method.name (toString r.dataSeed).toList r.seed :=
      pieces_eq (List.cons_ne_nil _ _) rfl (underscore_free r) joined.symm
    obtain ⟨rfl, rfl, rfl⟩ := request_eq_of_pieces same
    exact ⟨rfl, rfl, rfl⟩
  · rintro ⟨rfl, rfl, rfl⟩
    exact ⟨_, rfl⟩

end Archive

namespace Command.Fit

variable {values : Fields} {chance : Chance} {run : Run Numeral} {source : Source Numeral}
  {tag : String} {seed : Int}

theorem named_of_plan (given : values.get "--seed" = .whole seed)
    (planned : plan values chance = .ok (run, source, tag)) :
    ∃ dataset, tag ++ ".csv" = Archive.RunName.fileName
      ⟨run.task.objective, run.method, dataset, wholeOf values "--m", wholeOf values "--d",
        wholeOf values "--data_seed", seed⟩ := by
  unfold plan at planned
  split at planned
  · split_ifs at planned
    · cases planned
    · obtain ⟨fields, -, planned⟩ := bind_eq_ok.mp planned
      obtain ⟨run', -, planned⟩ := bind_eq_ok.mp planned
      obtain ⟨-, -, planned⟩ := bind_eq_ok.mp planned
      obtain ⟨source', -, planned⟩ := bind_eq_ok.mp planned
      obtain ⟨-, -, planned⟩ := bind_eq_ok.mp planned
      rw [given] at planned
      cases planned
      exact ⟨_, rfl⟩
  · cases planned

theorem histories_named (given : values.get "--seed" = .whole seed) (chance : Chance) :
    Update.Maintains (fun filed => ∀ entry ∈ filed.histories, ∃ r : Archive.RunName,
      entry.1 = s!"{resultsFolder}/{r.fileName}" ∧ r.rows = wholeOf values "--m" ∧
        r.dimension = wholeOf values "--d" ∧ r.dataSeed = wholeOf values "--data_seed" ∧
        r.seed = seed) (execute values chance) fun _ => True := by
  refine .bind (.ofExcept fun planned done => done) fun (run, source, tag) planned => ?_
  obtain ⟨dataset, name⟩ := named_of_plan given planned
  refine .bind (.modify fun filed kept => kept) fun _ _ =>
    .bind (.ofExcept fun _ _ => trivial) fun _ _ => .bind (.modify fun filed _ => ?_) fun _ _ =>
      .bind (.ofExcept fun _ _ => trivial) fun _ _ => .pure trivial
  intro entry member
  obtain rfl := List.mem_singleton.mp member
  refine ⟨⟨run.task.objective, run.method, dataset, wholeOf values "--m", wholeOf values "--d",
    wholeOf values "--data_seed", seed⟩, ?_, rfl, rfl, rfl, rfl⟩
  have itself (s : String) : toString s = s := rfl
  rw [← name]
  simp only [itself, String.append_assoc]

end Command.Fit

end Passwise
