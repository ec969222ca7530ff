import Passwise.Proofs.RiskSet
import Passwise.Proofs.Differences
import Passwise.Proofs.Intake
import Passwise.Proofs.Order
import Passwise.Proofs.Restart
import Passwise.Source

set_option autoImplicit false

namespace Passwise

class Scalar.Unordered (α : Type) [Scalar α] : Prop where
  not_add_lt {x : α} (undefined : Scalar.isNaN x = true) (y z : α) : ¬ x + y < z
  not_tolerance_le_sub {x : α} (undefined : Scalar.isNaN x = true) (y : α) :
    ¬ RiskSet.tolerance ≤ x - y

instance : Scalar.Unordered Float := ⟨Double.not_add_lt, Double.not_tolerance_le_sub⟩

section Forming

variable {α : Type} [Scalar α]

namespace RiskSet

-- An example that closes a group opens the next one, and every other joins the group that is open.
inductive Forms (model : Vec α) : List (Example α) → RiskSet α → Groups α → Prop
  | empty : Forms model [] (.empty model.length) ⟨[], []⟩
  | joins {stream : List (Example α)} {r r' : RiskSet α} {g : Groups α} {e : Example α}
      (before : Forms model stream r g) (added : (add model e).run r = (.ok none, r')) :
      Forms model (stream ++ [e]) r' ⟨g.closed, g.group ++ [e]⟩
  | opens {stream : List (Example α)} {r r' : RiskSet α} {g : Groups α} {e : Example α}
      {c : Contribution α} (before : Forms model stream r g)
      (added : (add model e).run r = (.ok (some c), r')) :
      Forms model (stream ++ [e]) r' ⟨g.all, [e]⟩

variable {model : Vec α} {stream : List (Example α)} {r r' : RiskSet α} {g : Groups α}
  {e : Example α}

theorem Forms.flatten (forms : Forms model stream r g) : g.all.flatten = stream := by
  induction forms with
  | empty => rfl
  | joins _ _ ih =>
    rw [← ih]
    simp [Groups.all]
  | opens _ _ ih =>
    rw [← ih]
    simp [Groups.all]

theorem enter_keeps_groupTime (features : Vec α) (event : Bool) (score weight : α) :
    Update.Keeps groupTime (enter features event score weight) := by
  refine .bind (.modify fun _ => rfl) fun _ => .bind .get fun _ => .bind (.ofExcept _) fun _ =>
    .bind (.modify fun _ => rfl) fun _ => .bind .get fun _ => .bind (.ofExcept _) fun _ =>
    .bind (.modify fun _ => rfl) fun _ => ?_
  split_ifs
  · exact .bind (.modify fun _ => rfl) fun _ => .bind .get fun _ => .bind (.ofExcept _) fun _ =>
      .modify fun _ => rfl
  · exact .pure _

theorem advance_of_add {closed : Option (Contribution α)}
    (added : (add model e).run r = (.ok closed, r')) :
    ∃ t, (advance e.time).run r = (.ok closed, t) ∧ r'.groupTime = t.groupTime := by
  unfold add at added
  rcases label : e.label with value | ⟨time, event⟩
  · rw [label] at added
    cases added
  have same : e.time = time := congrArg Label.number label
  rw [label] at added
  obtain ⟨answer, t, advanced, added⟩ := Update.run_bind_eq_ok.mp added
  obtain ⟨score, t', scored, added⟩ := Update.run_bind_eq_ok.mp added
  rw [Update.run_ofExcept, Prod.mk.injEq] at scored
  obtain ⟨-, rfl⟩ := scored
  dsimp only at added
  split_ifs at added
  · cases added
  · obtain ⟨_, u, entered, added⟩ := Update.run_bind_eq_ok.mp added
    cases added
    exact ⟨t, same ▸ advanced, (enter_keeps_groupTime _ _ _ _).of_run entered⟩

theorem advance_cases {time : α} {closed : Option (Contribution α)}
    (advanced : (advance time).run r = (.ok closed, r')) :
    (r.groupTime = none ∧ closed = none ∧ r'.groupTime = some time) ∨
      ∃ first, r.groupTime = some first ∧
        ((closed = none ∧ ¬ tolerance ≤ first - time ∧ r'.groupTime = some first) ∨
          (closed ≠ none ∧ tolerance ≤ first - time ∧ r'.groupTime = some time)) := by
  unfold advance at advanced
  rw [Update.run_bind_ok (Update.run_get _)] at advanced
  cases known : r.groupTime with
  | none =>
    rw [known] at advanced
    cases advanced
    exact .inl ⟨rfl, rfl, rfl⟩
  | some first =>
    rw [known] at advanced
    refine .inr ⟨first, rfl, ?_⟩
    dsimp only at advanced
    split_ifs at advanced with late apart
    · cases advanced
    · obtain ⟨_, _, _, advanced⟩ := Update.run_bind_eq_ok.mp advanced
      cases advanced
      exact .inr ⟨nofun, apart, rfl⟩
    · cases advanced
      exact .inl ⟨rfl, apart, known⟩

theorem Forms.groupTime_eq (forms : Forms model stream r g) :
    r.groupTime = g.group.head?.map (·.time) := by
  induction forms with
  | empty => rfl
  | @joins stream r r' g e _ added ih =>
    obtain ⟨t, advanced, same⟩ := advance_of_add added
    rw [same]
    rcases advance_cases advanced with ⟨none, -, opened⟩ | ⟨first, open', ⟨-, -, kept⟩ | ⟨some, -⟩⟩
    · have nobody : g.group = [] := by simpa [none] using ih.symm
      simp [nobody, opened]
    · obtain ⟨head, here, rfl⟩ := Option.map_eq_some_iff.mp (ih.symm.trans open')
      rw [kept, List.head?_append, here]
      rfl
    · exact absurd rfl some
  | opens _ added _ =>
    obtain ⟨t, advanced, same⟩ := advance_of_add added
    rw [same]
    rcases advance_cases advanced with ⟨-, none, -⟩ | ⟨first, -, ⟨none, -⟩ | ⟨-, -, opened⟩⟩
    · cases none
    · cases none
    · exact opened

theorem Forms.near (forms : Forms model stream r g) : ∀ group ∈ g.all, ∀ first rest,
    group = first :: rest → ∀ e ∈ rest, ¬ tolerance ≤ first.time - e.time := by
  induction forms with
  | empty =>
    rintro group member first rest rfl
    simp [Groups.all] at member
  | @joins stream r r' g e before added ih =>
    rintro group member first rest rfl x inside
    rcases List.mem_append.mp member with closed | last
    · exact ih _ (List.mem_append_left _ closed) first rest rfl x inside
    have whole : first :: rest = g.group ++ [e] := List.mem_singleton.mp last
    rcases known : g.group with _ | ⟨head, more⟩
    · rw [known] at whole
      cases whole
      cases inside
    · rw [known] at whole
      cases whole
      rcases List.mem_append.mp inside with earlier | new
      · exact ih g.group (by simp [Groups.all]) _ _ known x earlier
      · obtain rfl := List.mem_singleton.mp new
        have anchored := before.groupTime_eq
        obtain ⟨t, advanced, -⟩ := advance_of_add added
        rcases advance_cases advanced with ⟨none, -⟩ | ⟨time, open', ⟨-, near, -⟩ | ⟨some, -⟩⟩
        · rw [none, known] at anchored
          cases anchored
        · rw [open', known] at anchored
          cases anchored
          exact near
        · exact absurd rfl some
  | opens _ _ ih =>
    rintro group member first rest rfl x inside
    rcases List.mem_append.mp member with earlier | last
    · exact ih _ earlier first rest rfl x inside
    · cases List.mem_singleton.mp last
      cases inside

end RiskSet

namespace Newton

variable [DenseSolver α] {n : Newton α}

theorem forms_of_fold (cox : n.objective = .cox) {stream : List (Example α)}
    {last : Option (PassState α)} (folded : n.machine.fold stream none = .ok last) :
    ∃ model r g, RiskSet.Forms model stream r g ∧ (stream ≠ [] → last ≠ none) ∧
      ∀ state ∈ last, state.model = model ∧ state.risk = r := by
  induction stream using List.reverseRecOn generalizing last with
  | nil =>
    cases folded
    exact ⟨[], _, _, .empty, by simp, by simp⟩
  | append_singleton stream e ih =>
    rw [Machine.fold_append] at folded
    obtain ⟨before, front, folded⟩ := bind_eq_ok.mp folded
    rw [Machine.fold_cons] at folded
    obtain ⟨next, taken, folded⟩ := bind_eq_ok.mp folded
    cases folded
    -- A first example is taken from a start, whose risk set is empty.
    obtain ⟨state, r, g, forms, same, taken⟩ : ∃ state r g,
        RiskSet.Forms state.model stream r g ∧ state.risk = r ∧
          (n.machine.take e).exec (some state) = .ok last := by
      obtain ⟨model, r, g, forms, someone, known⟩ := ih front
      cases before with
      | some state =>
        obtain ⟨rfl, same⟩ := known state rfl
        exact ⟨state, r, g, forms, same, taken⟩
      | none =>
        obtain ⟨start, started, taken⟩ := Machine.take_none_eq_ok taken
        obtain rfl : stream = [] := by
          by_contra nonempty
          exact someone nonempty rfl
        exact ⟨start, .empty start.model.length, ⟨[], []⟩, .empty,
          by rw [PassState.risk, risk_of_start started]; rfl, taken⟩
    obtain ⟨closed, r', totals, added, risk, rfl⟩ := exists_added cox taken
    rw [same] at added
    have left : ∀ next ∈ some { state with totals := totals, rows := state.rows + 1 },
        next.model = state.model ∧ next.risk = r' := by
      rintro _ ⟨⟩
      exact ⟨rfl, by simp [PassState.risk, risk]⟩
    cases closed with
    | none => exact ⟨state.model, r', _, forms.joins added, by simp, left⟩
    | some c => exact ⟨state.model, r', _, forms.opens added, by simp, left⟩

end Newton

end Forming

section Undefined

variable {α : Type} [Scalar α] [Scalar.Unordered α]

namespace RiskSet

theorem advance_of_undefined {r : RiskSet α}
    (anchored : ∀ first ∈ r.groupTime, Scalar.isNaN first = true) (time : α) :
    ∃ r', (advance time).run r = (.ok none, r') := by
  unfold advance
  rw [Update.run_bind_ok (Update.run_get _)]
  cases known : r.groupTime with
  | none => exact ⟨_, rfl⟩
  | some first =>
    dsimp only
    rw [if_neg (Scalar.Unordered.not_add_lt (anchored first known) _ _),
      if_neg (Scalar.Unordered.not_tolerance_le_sub (anchored first known) _)]
    exact ⟨_, rfl⟩

variable {model : Vec α} {stream : List (Example α)} {r : RiskSet α} {g : Groups α}

theorem Forms.eq_of_undefined (forms : Forms model stream r g)
    (first : ∀ e ∈ stream.head?, Scalar.isNaN e.time = true) : g = ⟨[], stream⟩ := by
  induction forms with
  | empty => rfl
  | @joins stream r r' g e before _ ih =>
    have earlier : ∀ x ∈ stream.head?, Scalar.isNaN x.time = true := fun x here =>
      first x (List.mem_head?_append_of_mem_head? here)
    rw [ih earlier]
  | @opens stream r r' g e c before added ih =>
    have earlier : ∀ x ∈ stream.head?, Scalar.isNaN x.time = true := fun x here =>
      first x (List.mem_head?_append_of_mem_head? here)
    have anchored := before.groupTime_eq
    rw [ih earlier] at anchored
    obtain ⟨t, advanced, -⟩ := advance_of_add added
    rcases advance_cases advanced with ⟨-, none, -⟩ | ⟨time, known, ⟨none, -⟩ | ⟨-, apart, -⟩⟩
    · cases none
    · cases none
    · obtain ⟨head, here, rfl⟩ := Option.map_eq_some_iff.mp (anchored.symm.trans known)
      exact absurd apart
        (Scalar.Unordered.not_tolerance_le_sub (earlier head here) e.time)

end RiskSet

variable [DenseSolver α] {n : Newton α}

theorem Newton.fold_of_undefined (cox : n.objective = .cox) {start : PassState α}
    (fresh : start.totals.risk = none) {stream : List (Example α)}
    (alike : ∀ e ∈ stream, e.label.isSurvival = true ∧ e.dimension = n.origin.task.dimension ∧
      e.dimension = start.model.length)
    (finite : ∀ e ∈ stream, Scalar.isFinite (Scalar.exp (Vec.dot start.model e.features)) = true)
    (first : ∀ e ∈ stream.head?, Scalar.isNaN e.time = true) :
    ∃ last, n.machine.fold stream (some start) = .ok (some last) ∧ last.model = start.model ∧
      last.risk.Fits start.model.length ∧
      RiskSet.Forms start.model stream last.risk ⟨[], stream⟩ := by
  have begins : start.risk = .empty start.model.length := by rw [PassState.risk, fresh]; rfl
  induction stream using List.reverseRecOn with
  | nil =>
    refine ⟨start, rfl, rfl, ?_, ?_⟩
    · rw [begins]
      exact RiskSet.fits_empty
    · rw [begins]
      exact .empty
  | append_singleton stream e ih =>
    have earlier : ∀ x ∈ stream.head?, Scalar.isNaN x.time = true := fun x here =>
      first x (List.mem_head?_append_of_mem_head? here)
    obtain ⟨state, folded, model, fits, forms⟩ :=
      ih (fun x member => alike x (List.mem_append_left _ member))
        (fun x member => finite x (List.mem_append_left _ member)) earlier
    obtain ⟨survival, size, same⟩ := alike e (by simp)
    have anchored : ∀ time ∈ state.risk.groupTime, Scalar.isNaN time = true := by
      rw [forms.groupTime_eq]
      intro time known
      obtain ⟨x, here, rfl⟩ := Option.map_eq_some_iff.mp known
      exact earlier x here
    obtain ⟨r, advanced⟩ := RiskSet.advance_of_undefined anchored e.time
    have label : ∃ event, e.label = .survival e.time event := by
      rcases known : e.label with value | ⟨time, event⟩
      · rw [known] at survival
        cases survival
      · exact ⟨event, by rw [Example.time, known]; rfl⟩
    obtain ⟨event, label⟩ := label
    obtain ⟨r', added⟩ := RiskSet.run_add_ok fits label advanced same (finite e (by simp))
    have added' : (RiskSet.add state.model e).run state.risk = (.ok none, r') := by rwa [model]
    refine ⟨{ state with totals := { state.totals with risk := some r' }, rows := state.rows + 1 },
      ?_, model, (RiskSet.add_fits start.model e fits added).2, forms.joins added⟩
    rw [Machine.fold_append, folded, ok_bind, Machine.fold_cons, Update.exec,
      run_take_ok cox size (Totals.run_addToRisk_joins added')]
    rfl

end Undefined

namespace Double

theorem notBefore_iff {x y : Float} : Source.notBefore x y = true ↔
    Scalar.isNaN x = true ∨ Scalar.isNaN y = false ∧ y ≤ x := by
  simp [Source.notBefore]

theorem notBefore_total (x y : Float) :
    (Source.notBefore x y || Source.notBefore y x) = true := by
  rw [Bool.or_eq_true, notBefore_iff, notBefore_iff]
  by_cases first : Scalar.isNaN x = true
  · exact .inl (.inl first)
  by_cases second : Scalar.isNaN y = true
  · exact .inr (.inl second)
  rw [Bool.not_eq_true] at first second
  rw [le_iff first second, le_iff second first]
  exact (le_total _ _).imp (fun below => .inr ⟨second, below⟩) fun below => .inr ⟨first, below⟩

theorem notBefore_trans (x y z : Float) (earlier : Source.notBefore x y = true)
    (later : Source.notBefore y z = true) : Source.notBefore x z = true := by
  rw [notBefore_iff] at *
  by_cases first : Scalar.isNaN x = true
  · exact .inl first
  obtain ⟨second, below⟩ := earlier.resolve_left first
  obtain ⟨third, lower⟩ := later.resolve_left (by rw [second]; exact Bool.false_ne_true)
  exact .inr ⟨third, le_trans lower below⟩

end Double

namespace Source

theorem byDescendingTime_sorted (source : Source Float) :
    source.byDescendingTime.Pairwise fun a b => notBefore a.time b.time = true := by
  have trans (a b c : Example Float) : notBefore a.label.number b.label.number = true →
      notBefore b.label.number c.label.number = true →
      notBefore a.label.number c.label.number = true :=
    Double.notBefore_trans a.label.number b.label.number c.label.number
  have total (a b : Example Float) : (notBefore a.label.number b.label.number ||
      notBefore b.label.number a.label.number) = true :=
    Double.notBefore_total a.label.number b.label.number
  exact List.pairwise_mergeSort trans total source.examples

theorem mem_byDescendingTime {source : Source Float} {e : Example Float} :
    e ∈ source.byDescendingTime ↔ e ∈ source.examples :=
  (List.mergeSort_perm _ _).mem_iff

theorem isNaN_of_head {source : Source Float}
    (undefined : ∃ e ∈ source.examples, Scalar.isNaN e.time = true) :
    ∀ e ∈ source.byDescendingTime.head?, Scalar.isNaN e.time = true := by
  obtain ⟨x, member, undefined⟩ := undefined
  have inside := mem_byDescendingTime.mpr member
  have sorted := source.byDescendingTime_sorted
  cases known : source.byDescendingTime with
  | nil => simp
  | cons head rest =>
    rw [known] at inside sorted
    rintro _ ⟨⟩
    rcases List.mem_cons.mp inside with rfl | later
    · exact undefined
    · have before := (List.pairwise_cons.mp sorted).1 x later
      rw [Double.notBefore_iff, undefined] at before
      exact before.resolve_right (by simp)

end Source

namespace Groups

-- Nobody who is at risk with a group, in it or before it, has a time a millionth or more below one
-- of the group.
def Separate (g : Groups Float) : Prop :=
  ∀ i group, g.all[i]? = some group → ∀ a ∈ group, ∀ b ∈ (g.all.take (i + 1)).flatten, ∀ s t : ℝ,
    Double.HasValue a.time s → Double.HasValue b.time t → s - t < 1 / 1000000

end Groups

namespace RiskSet

open Double

namespace Forms

variable {model : Vec Float} {stream : List (Example Float)} {r : RiskSet Float}
  {g : Groups Float}

theorem separate (forms : Forms model stream r g)
    (sorted : stream.Pairwise fun a b => Source.notBefore a.time b.time = true)
    (numbers : ∀ e ∈ stream, Scalar.isNaN e.time = false) : g.Separate := by
  intro i group here a inGroup b atRisk s t left right
  have inside : group ∈ g.all := List.mem_of_getElem? here
  have member {x : Example Float} (known : x ∈ group) : x ∈ stream := by
    rw [← forms.flatten]
    exact List.mem_flatten_of_mem inside known
  have below {x y : Example Float} {u v : ℝ} (before : Source.notBefore x.time y.time = true)
      (number : Scalar.isNaN x.time = false) (value : HasValue x.time u)
      (value' : HasValue y.time v) : v ≤ u := by
    rw [notBefore_iff, number] at before
    exact value'.le value (before.resolve_left Bool.false_ne_true).2
  have split : stream = (g.all.take i).flatten ++ (group ++ (g.all.drop (i + 1)).flatten) := by
    have cut : g.all.drop i = group :: g.all.drop (i + 1) :=
      List.drop_eq_getElem?_toList_append.trans (by rw [here]; rfl)
    rw [← forms.flatten, ← List.flatten_cons, ← cut, ← List.flatten_append, List.take_append_drop]
  rw [split] at sorted
  obtain ⟨-, later, across⟩ := List.pairwise_append.mp sorted
  rw [List.take_add_one, here, List.flatten_append, List.mem_append] at atRisk
  rcases atRisk with earlier | same
  · have order := below (across b earlier a (List.mem_append_left _ inGroup))
      (numbers b (by rw [split]; exact List.mem_append_left _ earlier)) right left
    linarith
  have same : b ∈ group := by simpa using same
  obtain ⟨first, rest, rfl⟩ := List.exists_cons_of_ne_nil (List.ne_nil_of_mem inGroup)
  have falling := (List.pairwise_cons.mp (List.pairwise_append.mp later).1).1
  have number := numbers first (member (by simp))
  have lowest {x : Example Float} {u v : ℝ} (known : x ∈ first :: rest)
      (value : HasValue first.time u) (value' : HasValue x.time v) : v ≤ u := by
    rcases List.mem_cons.mp known with rfl | known
    · exact (value'.unique value).le
    · exact below (falling x known) number value value'
  rcases List.mem_cons.mp same with rfl | inRest
  · have order := lowest inGroup right left
    linarith
  -- The first of the group has a time that b is near, so it is finite too.
  · have near := forms.near _ inside first rest rfl b inRest
    have order : b.time ≤ first.time := by
      have before := falling b inRest
      rw [notBefore_iff, number] at before
      exact (before.resolve_left Bool.false_ne_true).2
    rcases exists_value_or_top number right order with ⟨u, value⟩ | top
    · have above := lowest inGroup value left
      by_contra far
      exact near (tolerance_le_sub value right (by linarith))
    · exact absurd (tolerance_le_sub_of_top top right) near

end Forms

end RiskSet

namespace Newton

open Double

variable [DenseSolver Float] {n : Newton Float}

theorem separates (cox : n.objective = .cox) (source : Source Float) :
    (∃ cause, n.machine.fold source.byDescendingTime none = .error cause) ∨
    ∃ last model r g, n.machine.fold source.byDescendingTime none = .ok last ∧
      (source.examples ≠ [] → last ≠ none) ∧
      (∀ state ∈ last, state.model = model ∧ state.risk = r) ∧
      RiskSet.Forms model source.byDescendingTime r g ∧
      (g.Separate ↔ (∀ e ∈ source.examples, Scalar.isNaN e.time = false) ∨
        ∀ a ∈ source.examples, ∀ b ∈ source.examples, ∀ s t : ℝ, HasValue a.time s →
          HasValue b.time t → |s - t| < 1 / 1000000) := by
  rcases folded : n.machine.fold source.byDescendingTime none with cause | last
  · exact .inl ⟨cause, rfl⟩
  obtain ⟨model, r, g, forms, someone, same⟩ := forms_of_fold cox folded
  have nonempty (some : source.examples ≠ []) : source.byDescendingTime ≠ [] := by
    obtain ⟨e, member⟩ := List.exists_mem_of_ne_nil _ some
    exact List.ne_nil_of_mem (Source.mem_byDescendingTime.mpr member)
  refine .inr ⟨last, model, r, g, rfl, fun some => someone (nonempty some), same, forms, ?_, ?_⟩
  · intro separate
    by_cases numbers : ∀ e ∈ source.examples, Scalar.isNaN e.time = false
    · exact .inl numbers
    have undefined : ∃ e ∈ source.examples, Scalar.isNaN e.time = true := by
      simpa using numbers
    rw [forms.eq_of_undefined (Source.isNaN_of_head undefined)] at separate
    have below {a b : Example Float} (left : a ∈ source.examples) (right : b ∈ source.examples)
        {s t : ℝ} (value : HasValue a.time s) (value' : HasValue b.time t) :
        s - t < 1 / 1000000 :=
      separate 0 source.byDescendingTime rfl a (Source.mem_byDescendingTime.mpr left) b
        (by simpa [Groups.all] using Source.mem_byDescendingTime.mpr right) s t value value'
    exact .inr fun a left b right s t value value' =>
      abs_sub_lt_iff.mpr ⟨below left right value value', below right left value' value⟩
  · rintro (numbers | near)
    · exact forms.separate source.byDescendingTime_sorted fun e member =>
        numbers e (Source.mem_byDescendingTime.mp member)
    · intro i group here a inGroup b atRisk s t value value'
      have member {x : Example Float} (inside : x ∈ g.all.flatten) : x ∈ source.examples :=
        Source.mem_byDescendingTime.mp (forms.flatten ▸ inside)
      have left := member (List.mem_flatten_of_mem (List.mem_of_getElem? here) inGroup)
      have right := member ((List.take_sublist _ _).flatten.subset atRisk)
      exact lt_of_abs_lt (near a left b right s t value value')

end Newton

-- Doubles beside an exponential of one's own.
def Exponentials (_exp : Float → Float) : Type := Float

namespace Exponentials

variable {exp : Float → Float}

instance : Scalar (Exponentials exp) :=
  { (inferInstanceAs (Scalar Float) : Scalar (Exponentials exp)) with exp := exp }

instance : Scalar.Unordered (Exponentials exp) := ⟨Double.not_add_lt, Double.not_tolerance_le_sub⟩

instance : DenseSolver (Exponentials exp) := Elimination.solver (Exponentials exp)

example : (inferInstance : Scalar (Exponentials Float.exp)) = (inferInstance : Scalar Float) := rfl

end Exponentials

namespace Pooled

def task : Task Float :=
  ⟨1, .cox, 1, 1, Nat.one_pos, by decide +kernel, by decide +kernel⟩

def newton : Newton Float := ⟨⟨task, none⟩, 1000, rfl, rfl⟩

def source (times : List Float) : Source Float where
  dimension := 1
  survival := true
  examples := times.map fun time => ⟨[0], .survival time true⟩
  uniform := by simp [Example.dimension, Label.isSurvival]

theorem separates_falling :
    let falling := source [1 / 0, 5, 4.9999995, 3]
    newton.objective = .cox ∧
      ((∃ cause, newton.machine.fold falling.byDescendingTime none = .error cause) ∨
      ∃ last model r g, newton.machine.fold falling.byDescendingTime none = .ok last ∧
        last ≠ none ∧ RiskSet.Forms model falling.byDescendingTime r g ∧ g.Separate) := by
  intro falling
  have numbers : ∀ e ∈ falling.examples, Scalar.isNaN e.time = false := by decide +kernel
  refine ⟨rfl, (Newton.separates (n := newton) rfl falling).imp_right ?_⟩
  rintro ⟨last, model, r, g, folded, someone, -, forms, separate⟩
  exact ⟨last, model, r, g, folded, someone (by simp [falling, source]), forms,
    separate.mpr (.inl numbers)⟩

def exp (x : Float) : Float := if x == 0 then 1 else Float.exp x

def newtonOf : Newton (Exponentials exp) :=
  ⟨⟨⟨1, .cox, 1, 1, Nat.one_pos, by decide +kernel, by decide +kernel⟩, none⟩,
    Scalar.ofInt 1000, rfl, rfl⟩

theorem not_separate_undefined :
    let mixed := source [5, 0 / 0, 3]
    let stream : List (Example (Exponentials exp)) := mixed.byDescendingTime
    ∃ last g, newtonOf.machine.fold stream none = .ok (some last) ∧
      RiskSet.Forms last.model stream last.risk g ∧ ¬ Groups.Separate g := by
  intro mixed stream
  have inside {e : Example Float} (member : e ∈ mixed.byDescendingTime) :
      ∃ time, e = ⟨[0], .survival time true⟩ := by
    obtain ⟨time, -, rfl⟩ := List.mem_map.mp (Source.mem_byDescendingTime.mp member)
    exact ⟨time, rfl⟩
  have undefined : ∃ e ∈ mixed.examples, Scalar.isNaN e.time = true :=
    ⟨⟨[0], .survival (0 / 0) true⟩, by simp [mixed, source], by decide +kernel⟩
  have five : (⟨[0], .survival 5 true⟩ : Example Float) ∈ mixed.byDescendingTime :=
    Source.mem_byDescendingTime.mpr (by simp [mixed, source])
  have three : (⟨[0], .survival 3 true⟩ : Example Float) ∈ mixed.byDescendingTime :=
    Source.mem_byDescendingTime.mpr (by simp [mixed, source])
  have started : newtonOf.machine.start =
      .ok ⟨newtonOf.origin.task, [0], .fresh, ⟨0, some [0], some [[0]], none⟩, 0⟩ := rfl
  have alike : ∀ e ∈ stream, e.label.isSurvival = true ∧ e.dimension = 1 ∧ e.dimension = 1 := by
    intro e member
    obtain ⟨time, rfl⟩ := inside member
    exact ⟨rfl, rfl, rfl⟩
  have weight : Scalar.isFinite (Scalar.exp (Vec.dot [0] [0] : Exponentials exp)) = true := by
    decide +kernel
  have finite : ∀ e ∈ stream, Scalar.isFinite (Scalar.exp (Vec.dot [0] e.features)) = true := by
    intro e member
    obtain ⟨time, rfl⟩ := inside member
    exact weight
  obtain ⟨last, folded, model, -, forms⟩ := Newton.fold_of_undefined (n := newtonOf) rfl
    (Newton.risk_of_start started) alike finite (Source.isNaN_of_head undefined)
  rw [Machine.fold_start started (List.ne_nil_of_mem five)] at folded
  refine ⟨last, _, folded, model ▸ forms, fun separate => ?_⟩
  have value : Double.HasValue 5 5 := ⟨⟨false, 5629499534213120, -50⟩, by rfl, by
    rw [Double.value_dyadic]
    norm_num⟩
  have value' : Double.HasValue 3 3 := ⟨⟨false, 6755399441055744, -51⟩, by rfl, by
    rw [Double.value_dyadic]
    norm_num⟩
  have near := separate 0 _ rfl _ five ⟨[0], .survival 3 true⟩
    (List.mem_flatten_of_mem (List.mem_singleton_self _) three) 5 3 value value'
  norm_num at near

end Pooled

end Passwise
