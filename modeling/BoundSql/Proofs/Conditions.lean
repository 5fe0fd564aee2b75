import BoundSql.Proofs.ClauseReading
import BoundSql.Proofs.OneColumn

/-!
# Conditions that lack nothing

The checks, the plan and the text of a condition tell cases apart each in their own
way. The checks ask whether a list is let through, the plan whether there is one, and
the text whether the comparison is written with parentheses; without them it writes
the first slot and no other. Each has cases that make no sense for the other two: a
comparison without the value that it looks at, a list whose first item alone is
written, parentheses with nothing in them.

What a condition should come to is said here once for each kind of comparison: the
values that it `Binds`, and the text that it `Writes` of their names. A criterion
that passes the checks has a plan that does the one (`Criterion.binds_slots`), and
the condition of a plan that does has room for every name (`Plan.writes_condition`).

> `Plan.lacks_nothing`: every criterion that passes the checks has a plan, and the
> condition of a plan binds all values and writes all names, each once.

The policy does not have to be sound for that, as the checks look at the comparison
in effect, whether it is allowed or not.
-/

namespace BoundSql

open Placeholder

namespace Comparison

/-- The comparisons that look at no value. -/
def nullTests : List Comparison := [isNull, isNotNull]

/-- The comparisons that are written with parentheses. -/
def listTests : List Comparison := [isIn, notIn]

/-- The null tests look at no value, and all other comparisons do. -/
theorem takesValue_iff {comparison : Comparison} :
    comparison.takesValue = true ↔ comparison ∉ nullTests := by
  cases comparison <;> decide

/-- Parentheses are written by the comparisons that let lists through. -/
theorem takesList_iff {comparison : Comparison} :
    comparison.takesList = true ↔ comparison ∈ listTests := by
  cases comparison <;> decide

theorem not_mem_nullTests_of_mem_listTests {comparison : Comparison}
    (h : comparison ∈ listTests) : comparison ∉ nullTests := by
  revert h
  cases comparison <;> decide

/-- Which values are bound where a criterion has a value or none: none at all for a null
test, and otherwise the items of a list, of which there is one at least, or the value. -/
inductive Binds : Comparison → Option Value → List Value → Prop where
  | alone {comparison : Comparison} (value : Option Value) (hnull : comparison ∈ nullTests) :
    Binds comparison value []
  | items {comparison : Comparison} {items : List Value} (hlist : comparison ∈ listTests)
      (hne : items ≠ []) (hscalars : ∀ item ∈ items, item.isList = false) :
    Binds comparison (some (.list items)) items
  | single {comparison : Comparison} {value : Value} (hnull : comparison ∉ nullTests)
      (hscalar : value.isList = false) :
    Binds comparison (some value) [value]

/-- How many values those are. -/
def slotCount (comparison : Comparison) (value : Option Value) : Nat :=
  if comparison ∈ nullTests then 0
  else
    match value with
    | some (.list items) => items.length
    | _ => 1

/-- The text of a condition on a column with all of some names, each once and in their
order: none after a null test, a row in parentheses where a list is let through, and
a single one after any other comparison. -/
inductive Writes (column : String) : Comparison → List String → String → Prop where
  | alone {comparison : Comparison} (hnull : comparison ∈ nullTests) :
    Writes column comparison [] (column ++ " " ++ comparison.sql)
  | listed {comparison : Comparison} {names : List String} (hlist : comparison ∈ listTests)
      (hne : names ≠ []) :
    Writes column comparison names
      (column ++ " " ++ comparison.sql ++ " (" ++ ",".intercalate names ++ ")")
  | single {comparison : Comparison} (name : String) (hnull : comparison ∉ nullTests)
      (hlist : comparison ∉ listTests) :
    Writes column comparison [name] (column ++ " " ++ comparison.sql ++ " " ++ name)

namespace Binds

variable {comparison : Comparison} {value : Option Value} {values : List Value}

/-- As many values are bound as there are slots. -/
theorem length_eq (h : comparison.Binds value values) :
    values.length = comparison.slotCount value := by
  unfold slotCount
  cases h with
  | alone value hnull => rw [if_pos hnull, List.length_nil]
  | items hlist hne hscalars => rw [if_neg (not_mem_nullTests_of_mem_listTests hlist)]
  | @single value hnull hscalar =>
    rw [if_neg hnull]
    cases value with
    | list items => cases hscalar
    | _ => rfl

/-- No list is bound. -/
theorem isList_eq_false (h : comparison.Binds value values) :
    ∀ bound ∈ values, bound.isList = false := by
  cases h with
  | alone value hnull => exact fun bound hbound => (List.not_mem_nil hbound).elim
  | items hlist hne hscalars => exact hscalars
  | single hnull hscalar => exact fun bound hbound => (List.mem_singleton.mp hbound) ▸ hscalar

end Binds

/-- A reader finds just the names in a condition on a silent column. -/
theorem Writes.shows {comparison : Comparison} {column text : String} {names : List String}
    (h : comparison.Writes column names text) (hcolumn : Silent column)
    (hnames : ∀ name ∈ names, IsName name) : Shows text names := by
  have hsilent : Silent (column ++ " " ++ comparison.sql) :=
    (hcolumn.append separates_blank.1).append comparison.silent_sql
  cases h with
  | alone hnull => exact hsilent.shows
  | listed hlist hne =>
    have hopen : Silent " (" := by decide
    exact ((hsilent.append hopen).append_shows (shows_names hnames)).close separates_close
  | single name hnull hlist =>
    exact (hsilent.append separates_blank.1).append_shows
      (hnames name List.mem_cons_self).shows

end Comparison

/-! ## What a plan binds -/

namespace Criterion

/-- A list is let through by the comparisons for lists, if it has items and all of them are
scalars. -/
theorem valueCause?_list_eq_none_iff {comparison : Comparison} {column : String}
    {items : List Value} :
    valueCause? comparison column (some (.list items)) = none ↔
      comparison ∈ Comparison.listTests ∧ items ≠ [] ∧ ∀ item ∈ items, item.isList = false := by
  rw [← Comparison.takesList_iff]
  unfold valueCause?
  cases comparison.takesList <;> cases items <;> simp

variable {policy : Policy} {criterion : Criterion}

/-- **The slots** of a criterion that passes the checks have the values that are to be bound. -/
theorem binds_slots (h : criterion.cause? policy = none) (position : Nat) :
    (criterion.effectiveComparison policy).Binds criterion.value
      ((criterion.planned policy position).slots.map Binding.value) := by
  have hvalue := valueCause?_of_cause? h
  show Comparison.Binds _ _ ((criterion.slots _ position).map Binding.value)
  generalize criterion.effectiveComparison policy = comparison at *
  unfold slots
  split
  · next htakes =>
    have hfits := hvalue htakes
    split
    -- The checks have refused a comparison without its value.
    · next hnone =>
      rw [hnone] at hfits
      cases hfits
    · next items hitems =>
      rw [hitems] at hfits ⊢
      obtain ⟨hlist, hne, hscalars⟩ := valueCause?_list_eq_none_iff.mp hfits
      rw [List.map_map]
      have hvalues : items.zipIdx.map Prod.fst = items := List.zipIdx_map_fst 0 items
      exact hvalues.symm ▸ Comparison.Binds.items hlist hne hscalars
    · next value hnot hsome =>
      rw [hsome]
      refine .single (Comparison.takesValue_iff.mp htakes) ?_
      cases value with
      | list items => exact absurd rfl (hnot items)
      | _ => rfl
  · next htakes =>
    exact .alone _ (not_not.mp (mt Comparison.takesValue_iff.mpr htakes))

/-- The names of one criterion are told apart by the index. -/
theorem nodup_names_planned (policy : Policy) (criterion : Criterion) (position : Nat) :
    (criterion.planned policy position).names.Nodup := by
  rw [names_planned]
  refine (criterion.nodup_counters position).map_on fun counter hcounter other hother hsame => ?_
  refine Counter.eq_of_text_eq ?_ ((String.append_right_inj _).mp hsame)
  rw [position_of_mem_counters hcounter, position_of_mem_counters hother]

end Criterion

/-- **The condition** of a plan has all names of its slots, if these fit the comparison. -/
theorem Plan.writes_condition (plan : Plan) {value : Option Value}
    (h : plan.comparison.Binds value (plan.slots.map Binding.value)) :
    plan.comparison.Writes plan.criterion.column plan.names plan.condition := by
  have hlength : plan.names.length = (plan.slots.map Binding.value).length := by
    rw [names, List.length_map, List.length_map]
  have hscalar : plan.comparison ∉ Comparison.listTests → plan.comparison.takesList = false :=
    fun hlist => Bool.eq_false_iff.mpr (mt Comparison.takesList_iff.mp hlist)
  unfold condition
  rw [placeholders_eq]
  generalize plan.slots.map Binding.value = values at h hlength
  cases h with
  | alone value hnull =>
    have hlist : plan.comparison ∉ Comparison.listTests :=
      fun hlist => Comparison.not_mem_nullTests_of_mem_listTests hlist hnull
    rw [hscalar hlist, List.length_eq_zero_iff.mp hlength]
    show Comparison.Writes _ _ [] (plan.criterion.column ++ " " ++ plan.comparison.sql ++ "")
    rw [String.append_empty]
    exact .alone hnull
  | items hlist hne hscalars =>
    have hnames : plan.names ≠ [] := by
      rw [← List.length_pos_iff, hlength]
      exact List.length_pos_iff.mpr hne
    rw [Comparison.takesList_iff.mpr hlist, if_pos rfl, ← String.append_assoc,
      ← String.append_assoc]
    exact .listed hlist hnames
  | single hnull hvalue =>
    obtain ⟨name, hnames⟩ := List.length_eq_one_iff.mp hlength
    rw [hnames]
    by_cases hlist : plan.comparison ∈ Comparison.listTests
    -- A single value is written in parentheses as well where a list would be.
    · rw [Comparison.takesList_iff.mpr hlist, if_pos rfl, ← String.append_assoc,
        ← String.append_assoc]
      exact .listed hlist (List.cons_ne_nil name [])
    · rw [hscalar hlist, if_neg Bool.false_ne_true, ← String.append_assoc]
      exact .single name hnull hlist

/-- **Nothing is missing from a plan.** A criterion has a plan under a policy, sound or not,
if it passes the checks, and only then. The plan has no slot for a null test, one for each
item of a list, of which there is one at least, and one in any other case; there is no list
among the values of the slots, which are the value of the criterion or the items of it in
their order, and the names differ. The condition is the column and the comparison with all
of these names behind them, and if there is no colon in the column then a reader finds just
these in the condition. -/
theorem Plan.lacks_nothing (policy : Policy) (position : Nat) (criterion : Criterion) :
    ((∃ plan, ofCriterion policy position criterion = .ok plan) ↔
        criterion.check policy = .ok ()) ∧
      ∀ plan, ofCriterion policy position criterion = .ok plan →
        let comparison := criterion.effectiveComparison policy
        plan.slots.length = comparison.slotCount criterion.value ∧
          comparison.Binds criterion.value (plan.slots.map Binding.value) ∧
          (∀ slot ∈ plan.slots, slot.value.isList = false) ∧
          plan.names.Nodup ∧
          comparison.Writes criterion.column plan.names plan.condition ∧
          (Silent criterion.column → scan plan.condition.toList = plan.names) := by
  rw [Criterion.check_eq_ok_iff, Plan.ofCriterion_eq]
  cases hcause : criterion.cause? policy with
  | some cause =>
    refine ⟨⟨fun h => ?_, fun h => by cases h⟩, fun plan h => by cases h⟩
    obtain ⟨_, h⟩ := h
    cases h
  | none =>
    refine ⟨iff_of_true ⟨_, rfl⟩ rfl, fun plan h => ?_⟩
    cases h
    have hbinds := Criterion.binds_slots hcause position
    have hwrites := (criterion.planned policy position).writes_condition hbinds
    have hlength := hbinds.length_eq
    have hscalars := hbinds.isList_eq_false
    rw [List.length_map] at hlength
    rw [List.forall_mem_map] at hscalars
    refine ⟨hlength, hbinds, hscalars, Criterion.nodup_names_planned policy criterion position,
      hwrites, fun hcolumn => (hwrites.shows hcolumn fun name hname => ?_).scan_eq⟩
    obtain ⟨slot, hslot, rfl⟩ := List.mem_map.mp hname
    exact Criterion.isName_of_mem_slots hslot

/-- A list without a comparison of its own. -/
def unnamedList : Criterion := { column := "`t`.a", value := some (.list [.int 7, .null]) }

/-- A policy that falls back on a comparison which it does not allow. -/
def unsoundPolicy : Policy := { comparison := .notIn, allowedComparisons := [] }

/-- A policy that is not sound plans a list that the default policy refuses, and nothing of the
list is lost. -/
theorem Plan.lacks_nothing_unsound :
    ¬ unsoundPolicy.Sound ∧ unnamedList.check unsoundPolicy = .ok () ∧
      (∃ plan, ofCriterion unsoundPolicy 3 unnamedList = .ok plan ∧
        plan.names = [":t_a30", ":t_a31"] ∧
        plan.condition = "`t`.a NOT IN (:t_a30,:t_a31)" ∧
        plan.slots.length = 2 ∧
        Comparison.notIn.Binds unnamedList.value (plan.slots.map Binding.value) ∧
        scan plan.condition.toList = plan.names) ∧
      ¬ ∃ plan, ofCriterion {} 3 unnamedList = .ok plan := by
  obtain ⟨htotal, hplans⟩ := lacks_nothing unsoundPolicy 3 unnamedList
  obtain ⟨hlist, -⟩ := lacks_nothing {} 3 unnamedList
  have hcheck : unnamedList.check unsoundPolicy = .ok () := rfl
  refine ⟨by decide, hcheck, ?_, fun h => absurd (hlist.mp h) (by decide)⟩
  obtain ⟨plan, hplan⟩ := htotal.mpr hcheck
  obtain ⟨hlength, hbinds, -, -, -, hscan⟩ := hplans plan hplan
  have hsilent : Silent unnamedList.column := by decide
  cases hplan
  exact ⟨_, rfl, rfl, rfl, hlength, hbinds, hscan hsilent⟩

end BoundSql
