import BoundSql.Where
import Mathlib.Data.List.Nodup

/-!
# Accepted criteria lists

`planAll` checks a criterion, compares its names with those of the criteria
before it, and only then looks at the next one. Of a list that is accepted
nothing of this order can be seen any more:

> `planAll_eq_ok_iff`: a list is planned exactly when it is `Accepted`, that is
> when every criterion passes the checks on its own and no name occurs twice.
> Its plans are then `planned`, which looks at each criterion and its position
> alone.

What is said of `planned` therefore holds of every plan that the library ever
writes or binds, and `Where.compile_eq_ok_iff` says the same of clauses.
-/

namespace BoundSql

/-- The plan of a criterion at a position, whether or not it passes the checks. -/
def Criterion.planned (policy : Policy) (position : Nat) (criterion : Criterion) : Plan where
  position := position
  criterion := criterion
  comparison := criterion.effectiveComparison policy
  connective := criterion.effectiveConnective policy
  slots := criterion.slots (criterion.effectiveComparison policy) position

/-- The plans of criteria from a position on, whether or not they pass the checks. -/
def plannedFrom (policy : Policy) : Nat → List Criterion → List Plan
  | _, [] => []
  | position, criterion :: rest =>
    criterion.planned policy position :: plannedFrom policy (position + 1) rest

/-- The plans of a whole criteria list, whether or not it is accepted. -/
def planned (policy : Policy) (criteria : List Criterion) : List Plan :=
  plannedFrom policy 1 criteria

/-- A criterion is refused for its first cause, or it has its plan. -/
theorem Plan.ofCriterion_eq (policy : Policy) (position : Nat) (criterion : Criterion) :
    Plan.ofCriterion policy position criterion
      = match criterion.cause? policy with
        | some cause => .error ((Fault.of cause).atPosition position)
        | none => .ok (criterion.planned policy position) := by
  unfold Plan.ofCriterion Criterion.check
  cases criterion.cause? policy <;> rfl

/-- One step of planning: the checks of the criterion, its names, then the rest. -/
theorem planFrom_cons (policy : Policy) (position : Nat) (taken : List String)
    (criterion : Criterion) (rest : List Criterion) :
    planFrom policy position taken (criterion :: rest)
      = match criterion.cause? policy with
        | some cause => .error ((Fault.of cause).atPosition position)
        | none =>
          match firstTaken? taken (criterion.planned policy position).names with
          | some name => .error ((Fault.of (.placeholderCollision name)).atPosition position)
          | none =>
            (planFrom policy (position + 1)
              ((criterion.planned policy position).names ++ taken) rest).map
                (criterion.planned policy position :: ·) := by
  rw [planFrom, Plan.ofCriterion_eq]
  cases criterion.cause? policy with
  | some cause => rfl
  | none =>
    simp only [bind, Except.bind]
    cases firstTaken? taken (criterion.planned policy position).names with
    | some name => rfl
    | none =>
      dsimp only
      cases planFrom policy (position + 1)
        ((criterion.planned policy position).names ++ taken) rest <;> rfl

/-- Which lists are planned from a position on, clear of the names that are taken. -/
theorem planFrom_eq_ok_iff {policy : Policy} :
    ∀ {criteria : List Criterion} {position : Nat} {taken : List String} {plans : List Plan},
      planFrom policy position taken criteria = .ok plans ↔
        plans = plannedFrom policy position criteria ∧
        (∀ criterion ∈ criteria, criterion.cause? policy = none) ∧
        (plans.flatMap Plan.names).Nodup ∧
        ∀ name ∈ plans.flatMap Plan.names, name ∉ taken := by
  intro criteria
  induction criteria with
  | nil =>
    intro position taken plans
    constructor
    · intro h
      cases h
      simp [plannedFrom]
    · intro hparts
      obtain ⟨rfl, -⟩ := hparts
      rfl
  | cons criterion rest ih =>
    intro position taken plans
    rw [planFrom_cons]
    cases hcause : criterion.cause? policy with
    | some cause =>
      -- The criterion is refused, whatever comes after it.
      constructor
      · intro h
        cases h
      · intro hparts
        obtain ⟨-, hall, -⟩ := hparts
        rw [hall criterion List.mem_cons_self] at hcause
        cases hcause
    | none =>
      dsimp only
      cases htaken : firstTaken? taken (criterion.planned policy position).names with
      | some name =>
        -- The name occurs twice, here or in an earlier criterion.
        constructor
        · intro h
          cases h
        · intro hparts
          obtain ⟨rfl, -, hnodup, hnew⟩ := hparts
          rw [plannedFrom, List.flatMap_cons] at hnodup hnew
          have hnone := firstTaken?_eq_none_iff.mpr
            ⟨(List.nodup_append.mp hnodup).1, fun n hn => hnew n (List.mem_append_left _ hn)⟩
          rw [hnone] at htaken
          cases htaken
      | none =>
        -- The rest has to keep clear of the names of this criterion as well.
        obtain ⟨hown, hfree⟩ := firstTaken?_eq_none_iff.mp htaken
        dsimp only
        constructor
        · intro h
          cases hrest : planFrom policy (position + 1)
              ((criterion.planned policy position).names ++ taken) rest with
          | error fault => rw [hrest] at h; cases h
          | ok plans' =>
            rw [hrest] at h
            cases h
            obtain ⟨rfl, hall, hnodup, hnew⟩ := ih.mp hrest
            refine ⟨rfl, List.forall_mem_cons.mpr ⟨hcause, hall⟩, ?_, ?_⟩
            · rw [List.flatMap_cons]
              refine List.nodup_append.mpr ⟨hown, hnodup, fun a ha b hb hab => ?_⟩
              exact hnew b hb (List.mem_append_left _ (hab ▸ ha))
            · intro name hname
              rw [List.flatMap_cons, List.mem_append] at hname
              rcases hname with hname | hname
              · exact hfree name hname
              · exact fun ht => hnew name hname (List.mem_append_right _ ht)
        · intro hparts
          obtain ⟨rfl, hall, hnodup, hnew⟩ := hparts
          rw [plannedFrom, List.flatMap_cons] at hnodup hnew
          obtain ⟨-, hnodup', hdisj⟩ := List.nodup_append.mp hnodup
          have hrest := ih.mpr ⟨rfl, (List.forall_mem_cons.mp hall).2, hnodup',
            fun name hname ht => (List.mem_append.mp ht).elim
              (fun hn => hdisj name hn name hname rfl)
              (hnew name (List.mem_append_right _ hname))⟩
          rw [hrest]
          rfl

/-- Each criterion passes the checks, and no name occurs twice in the whole list. -/
structure Accepted (policy : Policy) (criteria : List Criterion) : Prop where
  checks : ∀ criterion ∈ criteria, criterion.cause? policy = none
  nodup : ((planned policy criteria).flatMap Plan.names).Nodup

/-- **Acceptance.** The lists that are planned are the accepted ones, and their plans are
made criterion by criterion. -/
theorem planAll_eq_ok_iff {policy : Policy} {criteria : List Criterion} {plans : List Plan} :
    planAll policy criteria = .ok plans ↔
      Accepted policy criteria ∧ plans = planned policy criteria := by
  rw [planAll, planFrom_eq_ok_iff]
  constructor
  · intro hparts
    obtain ⟨rfl, hchecks, hnodup, -⟩ := hparts
    exact ⟨⟨hchecks, hnodup⟩, rfl⟩
  · intro hparts
    obtain ⟨⟨hchecks, hnodup⟩, rfl⟩ := hparts
    exact ⟨rfl, hchecks, hnodup, fun _ _ => List.not_mem_nil⟩

/-! ## Compiling -/

namespace Where

/-- What is reported on the way does not change the result. -/
theorem result_compileTraced (debug : Bool) (policy : Policy) (criteria : List Criterion) :
    (compileTraced debug policy criteria).result = compile policy criteria := by
  unfold compile compileTraced
  split
  · rfl
  · simp only [Trace.result_bind, Trace.result_report, Trace.result_reportDetail]

theorem compile_nil (policy : Policy) : compile policy [] = .ok empty := rfl

/-- To compile is to plan and to write down what was planned. -/
theorem compile_eq_map {policy : Policy} {criteria : List Criterion} (hne : criteria ≠ []) :
    compile policy criteria = (planAll policy criteria).map ofPlans := by
  unfold compile compileTraced
  rw [if_neg (by simpa using hne)]
  simp only [Trace.result_bind, Trace.result_ofExcept]
  cases planAll policy criteria <;> rfl

/-- A list that is not empty compiles exactly when it is accepted. -/
theorem compile_eq_ok_iff {policy : Policy} {criteria : List Criterion} {clause : Where}
    (hne : criteria ≠ []) :
    compile policy criteria = .ok clause ↔
      Accepted policy criteria ∧ clause = ofPlans (planned policy criteria) := by
  rw [compile_eq_map hne]
  constructor
  · intro h
    cases hplans : planAll policy criteria with
    | error fault => rw [hplans] at h; cases h
    | ok plans =>
      rw [hplans] at h
      cases h
      obtain ⟨haccepted, rfl⟩ := planAll_eq_ok_iff.mp hplans
      exact ⟨haccepted, rfl⟩
  · intro hparts
    obtain ⟨haccepted, rfl⟩ := hparts
    rw [planAll_eq_ok_iff.mpr ⟨haccepted, rfl⟩]
    rfl

end Where

/-! ## Positions -/

/-- A plan made from a position on is that of some criterion, at that position or later. -/
theorem mem_plannedFrom {policy : Policy} {plan : Plan} :
    ∀ {criteria : List Criterion} {position : Nat}, plan ∈ plannedFrom policy position criteria →
      ∃ i criterion, position ≤ i ∧ criterion ∈ criteria ∧ plan = criterion.planned policy i := by
  intro criteria
  induction criteria with
  | nil => intro position h; cases h
  | cons criterion rest ih =>
    intro position h
    rcases List.mem_cons.mp h with rfl | h
    · exact ⟨position, criterion, Nat.le_refl _, List.mem_cons_self, rfl⟩
    · obtain ⟨i, other, hi, hmem, rfl⟩ := ih h
      exact ⟨i, other, by omega, List.mem_cons_of_mem _ hmem, rfl⟩

/-- Plans are made of criteria and the places at which these stand. -/
theorem plannedFrom_eq_map_zipIdx (policy : Policy) :
    ∀ (criteria : List Criterion) (position : Nat),
      plannedFrom policy position criteria
        = (criteria.zipIdx position).map fun (criterion, position) =>
            criterion.planned policy position := by
  intro criteria
  induction criteria with
  | nil => intro position; rfl
  | cons criterion rest ih =>
    intro position
    rw [plannedFrom, ih, List.zipIdx_cons, List.map_cons]

/-- Plans stand at the positions 1, 2, 3 and so on. -/
def Positioned (plans : List Plan) : Prop :=
  plans.map Plan.position = List.range' 1 plans.length

theorem length_plannedFrom (policy : Policy) :
    ∀ (criteria : List Criterion) (position : Nat),
      (plannedFrom policy position criteria).length = criteria.length
  | [], _ => rfl
  | _ :: rest, position => congrArg (· + 1) (length_plannedFrom policy rest (position + 1))

/-- Plans that are made from a position on have this position and those that follow. -/
theorem map_position_plannedFrom (policy : Policy) :
    ∀ (criteria : List Criterion) (position : Nat),
      (plannedFrom policy position criteria).map Plan.position
        = List.range' position criteria.length := by
  intro criteria
  induction criteria with
  | nil => intro position; rfl
  | cons criterion rest ih =>
    intro position
    rw [plannedFrom, List.map_cons, ih, List.length_cons, List.range'_succ]
    rfl

/-- The plans of a list are counted from 1. -/
theorem positioned_planned (policy : Policy) (criteria : List Criterion) :
    Positioned (planned policy criteria) := by
  unfold Positioned planned
  rw [map_position_plannedFrom, length_plannedFrom]

/-- The last plan of a list stands right after all others. -/
theorem Positioned.of_concat {plans : List Plan} {plan : Plan} (h : Positioned (plans ++ [plan])) :
    Positioned plans ∧ plan.position = plans.length + 1 := by
  unfold Positioned at h
  rw [List.length_append, List.length_singleton, List.range'_concat, List.map_append] at h
  obtain ⟨hplans, hlast⟩ := List.append_inj h (by simp)
  refine ⟨hplans, ?_⟩
  have hposition : plan.position = 1 + 1 * plans.length := by simpa using hlast
  omega

/-- No position is beyond the end of the list. -/
theorem Positioned.position_le {plans : List Plan} {plan : Plan} (h : Positioned plans)
    (hplan : plan ∈ plans) : plan.position ≤ plans.length := by
  have hmem : plan.position ∈ plans.map Plan.position := List.mem_map.mpr ⟨plan, hplan, rfl⟩
  rw [h, List.mem_range'_1] at hmem
  omega

end BoundSql
