import BoundSql.Criterion.Basic
import BoundSql.Placeholder
import BoundSql.Policy.Basic
import BoundSql.Text.Blank

/-!
# Plans

A `Plan` is everything that is needed to write one criterion or to bind it:
the operators in effect and its slots, one for each value that is bound. It
is made only for a criterion that passes the checks, so a plan never lacks a
value that its comparison looks at. The text of a condition and the bindings
both come from the plan, and the slots of a whole list have distinct names.
-/

namespace BoundSql

/-- One value to bind under one placeholder. -/
structure Binding where
  name : String
  value : Value
  kind : BindType
  deriving Inhabited

namespace Criterion

/-- The comparison in effect under a policy. -/
def effectiveComparison (policy : Policy) (criterion : Criterion) : Comparison :=
  criterion.comparison.getD policy.comparison

/-- The connective in effect under a policy. -/
def effectiveConnective (policy : Policy) (criterion : Criterion) : Connective :=
  criterion.connective.getD policy.connective

/-- What is wrong with the value of a criterion for a comparison that looks at it. -/
def valueCause? (comparison : Comparison) (column : String) : Option Value → Option Cause
  | none => some (.missingValue column comparison.sql)
  | some (.list items) =>
    if !comparison.takesList then
      some (.invalidValue column ("a list needs IN or NOT IN, not '" ++ comparison.sql ++ "'"))
    else if items.isEmpty then
      some (.invalidValue column ("'" ++ comparison.sql ++ "' needs at least one value"))
    else if items.any Value.isList then
      some (.invalidValue column "list elements must be scalars")
    else none
  | some _ => none

/-- What is wrong with a criterion under a policy, first things first: its column,
the operators it names, then its value if the comparison looks at it. -/
def cause? (policy : Policy) (criterion : Criterion) : Option Cause :=
  if Text.allBlank criterion.column then
    some .emptyColumn
  else
    let comparison := criterion.comparison.filter (· ∉ policy.allowedComparisons)
    let connective := criterion.connective.filter (· ∉ policy.allowedConnectives)
    match comparison, connective with
    | some op, _ => some (.invalidComparison op.sql)
    | none, some op => some (.invalidConnective op.sql)
    | none, none =>
      let comparison := criterion.effectiveComparison policy
      if comparison.takesValue then valueCause? comparison criterion.column criterion.value
      else none

/-- Refuses a criterion that does not fit a policy. -/
def check (policy : Policy) (criterion : Criterion) : Except Fault Unit :=
  match criterion.cause? policy with
  | some cause => .error (.of cause)
  | none => .ok ()

/-- The values to bind for a criterion at `position`: none for a comparison that
stands alone, one for each item of a list, and otherwise the value itself. -/
def slots (comparison : Comparison) (position : Nat) (criterion : Criterion) : List Binding :=
  let kind (value : Value) := criterion.bindType.getD value.bindType
  if comparison.takesValue then
    match criterion.value with
    | none => []
    | some (.list items) => items.zipIdx.map fun (item, index) =>
      ⟨Placeholder.ofElement criterion.column position index, item, kind item⟩
    | some value => [⟨Placeholder.ofCriterion criterion.column position, value, kind value⟩]
  else []

end Criterion

/-- Everything needed to write or bind one criterion. -/
structure Plan where
  /-- The place of the criterion in its list, counted from 1. -/
  position : Nat
  criterion : Criterion
  comparison : Comparison
  connective : Connective
  slots : List Binding
  deriving Inhabited

namespace Plan

/-- Plans one criterion under a policy. -/
def ofCriterion (policy : Policy) (position : Nat) (criterion : Criterion) :
    Except Fault Plan :=
  match criterion.check policy with
  | .error fault => .error (fault.atPosition position)
  | .ok () =>
    let comparison := criterion.effectiveComparison policy
    .ok {
      position, criterion, comparison
      connective := criterion.effectiveConnective policy
      slots := criterion.slots comparison position }

/-- The names of the slots. -/
def names (plan : Plan) : List String := plan.slots.map Binding.name

/-- The placeholders as they follow the comparison. -/
def placeholders (plan : Plan) : String :=
  if plan.comparison.takesList then " (" ++ ",".intercalate plan.names ++ ")"
  else
    match plan.slots with
    | slot :: _ => " " ++ slot.name
    | [] => ""

/-- The text of the condition, without any connective. -/
def condition (plan : Plan) : String :=
  plan.criterion.column ++ " " ++ plan.comparison.sql ++ plan.placeholders

end Plan

/-- The first of some names that is taken, by an earlier one of them or from the start. -/
def firstTaken? (taken : List String) : List String → Option String
  | [] => none
  | name :: rest => if name ∈ taken then some name else firstTaken? (name :: taken) rest

/-- No name is taken exactly when the names are new and differ from each other. -/
theorem firstTaken?_eq_none_iff {taken names : List String} :
    firstTaken? taken names = none ↔ names.Nodup ∧ ∀ name ∈ names, name ∉ taken := by
  induction names generalizing taken with
  | nil => simp [firstTaken?]
  | cons name rest ih =>
    by_cases h : name ∈ taken
    · simp [firstTaken?, h]
    · rw [firstTaken?, if_neg h, ih, List.nodup_cons, List.forall_mem_cons]
      constructor
      · rintro ⟨hrest, hnew⟩
        refine ⟨⟨fun hm => hnew name hm List.mem_cons_self, hrest⟩, h, fun n hn ht => ?_⟩
        exact hnew n hn (List.mem_cons_of_mem _ ht)
      · rintro ⟨⟨hname, hrest⟩, -, hnew⟩
        refine ⟨hrest, fun n hn ht => ?_⟩
        rcases List.mem_cons.1 ht with rfl | ht
        · exact hname hn
        · exact hnew n hn ht

/-- Plans criteria from a position on, keeping clear of the names that are taken. -/
def planFrom (policy : Policy) : Nat → List String → List Criterion → Except Fault (List Plan)
  | _, _, [] => .ok []
  | position, taken, criterion :: rest => do
    let plan ← Plan.ofCriterion policy position criterion
    match firstTaken? taken plan.names with
    | some name => throw ((Fault.of (.placeholderCollision name)).atPosition position)
    | none =>
      let plans ← planFrom policy (position + 1) (plan.names ++ taken) rest
      pure (plan :: plans)

/-- Plans a whole criteria list. -/
def planAll (policy : Policy) (criteria : List Criterion) : Except Fault (List Plan) :=
  planFrom policy 1 [] criteria

end BoundSql
