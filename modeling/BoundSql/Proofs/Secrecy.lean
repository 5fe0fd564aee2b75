import BoundSql.Builder.Basic
import BoundSql.Proofs.Planning
import Mathlib.Data.List.Forall2

/-!
# Bound data stays out of the text

Two runs are compared whose inputs differ in what is bound alone: the values
of criteria, of which only the shape is the same, the values of bound
assignments, and all bind types. Such inputs are `Alike`.

The checks look at the shape of a value and at nothing else, so both runs are
refused for the same reason at the same criterion, or neither is:

> `verdict_planFrom`: planning says the same of lists that are alike.

Where neither is refused their plans agree on everything that is written
(`Plan.Alike`), and a statement is put together from that. It makes no
difference whether one looks at the text alone or at the events that are
reported on the way as well.
-/

namespace BoundSql

/-- What the checks look at in the value of a criterion. -/
inductive Shape where
  | absent
  | scalar
  /-- A list, with a mark for each item that is a list itself. -/
  | list (nested : List Bool)
  deriving DecidableEq, Repr

namespace Shape

/-- The shape of the value of a criterion. -/
def ofValue : Option Value → Shape
  | none => absent
  | some (.list items) => list (items.map Value.isList)
  | some _ => scalar

/-- What is wrong with a value of some shape. -/
def cause? (comparison : Comparison) (column : String) : Shape → Option Cause
  | absent => some (.missingValue column comparison.sql)
  | scalar => none
  | list nested =>
    if !comparison.takesList then
      some (.invalidValue column ("a list needs IN or NOT IN, not '" ++ comparison.sql ++ "'"))
    else if nested.isEmpty then
      some (.invalidValue column ("'" ++ comparison.sql ++ "' needs at least one value"))
    else if nested.any id then
      some (.invalidValue column "list elements must be scalars")
    else none

/-- The names under which a value of some shape is bound. -/
def names (column : String) (position : Nat) : Shape → List String
  | absent => []
  | scalar => [Placeholder.ofCriterion column position]
  | list nested => (List.range nested.length).map (Placeholder.ofElement column position)

end Shape

/-- Two criteria that differ in what is bound alone. -/
structure Criterion.Alike (policy : Policy) (criterion criterion' : Criterion) : Prop where
  column : criterion.column = criterion'.column
  comparison : criterion.comparison = criterion'.comparison
  connective : criterion.connective = criterion'.connective
  grouping : criterion.grouping = criterion'.grouping
  shape : (criterion.effectiveComparison policy).takesValue = true →
    Shape.ofValue criterion.value = Shape.ofValue criterion'.value

/-- Two assignments that differ in what is bound alone. -/
structure Assignment.Alike (assignment assignment' : Assignment) : Prop where
  column : assignment.column = assignment'.column
  bound : assignment.bound = assignment'.bound
  value : assignment.bound = false → assignment.value = assignment'.value

/-! ## The checks -/

namespace Criterion

/-- What is wrong with a value is a matter of its shape. -/
theorem valueCause?_eq (comparison : Comparison) (column : String) (value : Option Value) :
    valueCause? comparison column value = (Shape.ofValue value).cause? comparison column := by
  rcases value with _ | value
  · rfl
  · cases value with
    | list items =>
      have hnested : (items.map Value.isList).any id = items.any Value.isList := by
        rw [List.any_map]
        rfl
      show _ = (Shape.list (items.map Value.isList)).cause? comparison column
      rw [Shape.cause?, List.isEmpty_map, hnested]
      rfl
    | _ => rfl

/-- The names of the slots are a matter of the shape of the value. -/
theorem names_slots (comparison : Comparison) (position : Nat) (criterion : Criterion) :
    (criterion.slots comparison position).map Binding.name
      = if comparison.takesValue then
          (Shape.ofValue criterion.value).names criterion.column position
        else [] := by
  unfold slots
  split
  · rcases criterion.value with _ | value
    · rfl
    · cases value with
      | list items =>
        have hindices : items.zipIdx.map Prod.snd = List.range items.length := by
          rw [List.zipIdx_map_snd, ← List.range_eq_range']
        show (items.zipIdx.map _).map Binding.name = (List.range _).map _
        rw [List.length_map, ← hindices, List.map_map, List.map_map]
        rfl
      | _ => rfl
  · rfl

namespace Alike

variable {policy : Policy} {criterion criterion' : Criterion}

/-- Alike criteria have the same comparison in effect. -/
theorem effectiveComparison_eq (h : criterion.Alike policy criterion') :
    criterion.effectiveComparison policy = criterion'.effectiveComparison policy := by
  unfold effectiveComparison
  rw [h.comparison]

theorem effectiveConnective_eq (h : criterion.Alike policy criterion') :
    criterion.effectiveConnective policy = criterion'.effectiveConnective policy := by
  unfold effectiveConnective
  rw [h.connective]

/-- Criteria that are alike pass the checks together, or fail for the same cause. -/
theorem cause?_eq (h : criterion.Alike policy criterion') :
    criterion.cause? policy = criterion'.cause? policy := by
  have heffective := h.effectiveComparison_eq
  unfold cause?
  simp only [valueCause?_eq]
  rw [h.column, h.comparison, h.connective, heffective]
  by_cases htakes : (criterion'.effectiveComparison policy).takesValue = true
  · rw [h.shape (heffective ▸ htakes)]
  · simp only [htakes, Bool.false_eq_true, if_false]

/-- Criteria that are alike are bound under the same names. -/
theorem names_eq (h : criterion.Alike policy criterion') (position : Nat) :
    (criterion.planned policy position).names = (criterion'.planned policy position).names := by
  have heffective := h.effectiveComparison_eq
  unfold Plan.names planned
  rw [names_slots, names_slots, h.column, heffective]
  by_cases htakes : (criterion'.effectiveComparison policy).takesValue = true
  · rw [h.shape (heffective ▸ htakes)]
  · rw [if_neg htakes, if_neg htakes]

end Alike

end Criterion

/-! ## Plans -/

/-- Two plans that are written in the same way. -/
structure Plan.Alike (plan plan' : Plan) : Prop where
  position : plan.position = plan'.position
  column : plan.criterion.column = plan'.criterion.column
  grouping : plan.criterion.grouping = plan'.criterion.grouping
  comparison : plan.comparison = plan'.comparison
  connective : plan.connective = plan'.connective
  names : plan.names = plan'.names

theorem Criterion.Alike.planned {policy : Policy} {criterion criterion' : Criterion}
    (h : criterion.Alike policy criterion') (position : Nat) :
    (criterion.planned policy position).Alike (criterion'.planned policy position) where
  position := rfl
  column := h.column
  grouping := h.grouping
  comparison := h.effectiveComparison_eq
  connective := h.effectiveConnective_eq
  names := h.names_eq position

/-- Lists that are alike are planned together, or are refused for the same fault. -/
theorem verdict_planFrom {policy : Policy} {criteria criteria' : List Criterion}
    (h : List.Forall₂ (Criterion.Alike policy) criteria criteria') :
    ∀ (position : Nat) (taken : List String),
      (planFrom policy position taken criteria).map (fun _ => ())
        = (planFrom policy position taken criteria').map (fun _ => ()) := by
  induction h with
  | nil => intro position taken; rfl
  | @cons criterion criterion' rest rest' hfirst _ ih =>
    intro position taken
    have hmap : ∀ (made : Except Fault (List Plan)) (grow : List Plan → List Plan),
        (made.map grow).map (fun _ => ()) = made.map fun _ => () := by
      intro made grow
      cases made <;> rfl
    rw [planFrom_cons, planFrom_cons, hfirst.cause?_eq, hfirst.names_eq position]
    cases criterion'.cause? policy with
    | some cause => rfl
    | none =>
      dsimp only
      cases firstTaken? taken (criterion'.planned policy position).names with
      | some name => rfl
      | none =>
        dsimp only
        rw [hmap, hmap]
        exact ih (position + 1) _

/-- Lists of alike criteria have alike plans, one by one. -/
theorem forall₂_plannedFrom {policy : Policy} {criteria criteria' : List Criterion}
    (h : List.Forall₂ (Criterion.Alike policy) criteria criteria') :
    ∀ position, List.Forall₂ Plan.Alike (plannedFrom policy position criteria)
      (plannedFrom policy position criteria') := by
  induction h with
  | nil => intro position; exact List.Forall₂.nil
  | cons hfirst _ ih =>
    intro position
    exact List.Forall₂.cons (hfirst.planned position) (ih (position + 1))

/-- Lists that are alike are refused for the same fault or have plans that are alike. -/
theorem planAll_alike {policy : Policy} {criteria criteria' : List Criterion}
    (h : List.Forall₂ (Criterion.Alike policy) criteria criteria') :
    (∃ fault, planAll policy criteria = .error fault ∧ planAll policy criteria' = .error fault) ∨
      ∃ plans plans', planAll policy criteria = .ok plans ∧
        planAll policy criteria' = .ok plans' ∧ List.Forall₂ Plan.Alike plans plans' := by
  have hverdict := verdict_planFrom h 1 []
  cases hplans : planAll policy criteria with
  | error fault =>
    left
    refine ⟨fault, rfl, ?_⟩
    rw [← planAll, ← planAll, hplans] at hverdict
    cases hplans' : planAll policy criteria' with
    | error fault' =>
      rw [hplans'] at hverdict
      cases hverdict
      rfl
    | ok plans' =>
      rw [hplans'] at hverdict
      cases hverdict
  | ok plans =>
    right
    rw [← planAll, ← planAll, hplans] at hverdict
    cases hplans' : planAll policy criteria' with
    | error fault' =>
      rw [hplans'] at hverdict
      cases hverdict
    | ok plans' =>
      refine ⟨plans, plans', rfl, rfl, ?_⟩
      obtain ⟨-, rfl⟩ := planAll_eq_ok_iff.mp hplans
      obtain ⟨-, rfl⟩ := planAll_eq_ok_iff.mp hplans'
      exact forall₂_plannedFrom h 1

/-! ## Clauses -/

theorem isEmpty_eq_of_forall₂ {α : Type} {R : α → α → Prop} {rows rows' : List α}
    (h : List.Forall₂ R rows rows') : rows.isEmpty = rows'.isEmpty := by
  cases h <;> rfl

/-- Of its slots, a plan writes only the names. -/
theorem Plan.placeholders_eq (plan : Plan) :
    plan.placeholders
      = if plan.comparison.takesList then " (" ++ ",".intercalate plan.names ++ ")"
        else
          match plan.names with
          | name :: _ => " " ++ name
          | [] => "" := by
  unfold placeholders
  split
  · rfl
  · unfold names
    cases plan.slots <;> rfl

namespace Plan.Alike

variable {plan plan' : Plan}

/-- Alike plans have the same condition. -/
theorem condition_eq (h : plan.Alike plan') : plan.condition = plan'.condition := by
  unfold condition
  rw [placeholders_eq, placeholders_eq, h.column, h.comparison, h.names]

theorem place_eq (h : plan.Alike plan') (layout : Layout) :
    layout.place plan = layout.place plan' := by
  unfold Layout.place
  rw [h.grouping, h.connective, h.condition_eq]

end Plan.Alike

/-- Plans that are alike are laid out in the same way. -/
theorem Layout.ofPlans_alike {plans plans' : List Plan}
    (h : List.Forall₂ Plan.Alike plans plans') : ofPlans plans = ofPlans plans' := by
  have hfrom : ∀ layout : Layout, plans.foldl place layout = plans'.foldl place layout := by
    induction h with
    | nil => intro layout; rfl
    | cons hfirst _ ih =>
      intro layout
      rw [List.foldl_cons, List.foldl_cons, hfirst.place_eq]
      exact ih _
  exact hfrom Layout.empty

theorem names_alike {plans plans' : List Plan} (h : List.Forall₂ Plan.Alike plans plans') :
    (plans.flatMap Plan.slots).map Binding.name = (plans'.flatMap Plan.slots).map Binding.name := by
  induction h with
  | nil => rfl
  | @cons plan plan' _ _ hfirst _ ih =>
    rw [List.flatMap_cons, List.flatMap_cons, List.map_append, List.map_append, ih]
    exact congrArg (· ++ _) hfirst.names

theorem conditions_alike {plans plans' : List Plan} (h : List.Forall₂ Plan.Alike plans plans') :
    (plans.map fun plan => Event.conditionWritten plan.position plan.condition)
      = plans'.map fun plan => Event.conditionWritten plan.position plan.condition := by
  induction h with
  | nil => rfl
  | cons hfirst _ ih =>
    rw [List.map_cons, List.map_cons, ih, hfirst.position, hfirst.condition_eq]

/-- Two traces report the same, and `view` tells their results apart in nothing. -/
structure Trace.Agrees {α β : Type} (view : α → β) (trace trace' : Trace α) : Prop where
  events : trace.events = trace'.events
  result : trace.result.map view = trace'.result.map view

/-- What goes on with nothing but the view of a result cannot tell the results apart. -/
theorem Trace.Agrees.bind_eq {α β γ : Type} {view : α → β} {trace trace' : Trace α}
    (h : trace.Agrees view trace') {next next' : α → Trace γ}
    (hnext : ∀ value value', view value = view value' → next value = next' value') :
    trace >>= next = trace' >>= next' := by
  obtain ⟨events, result⟩ := trace
  obtain ⟨events', result'⟩ := trace'
  obtain ⟨hevents, hresult⟩ := h
  dsimp only at hevents hresult
  subst hevents
  cases result with
  | error fault =>
    cases result' with
    | error fault' =>
      cases hresult
      rfl
    | ok value' => cases hresult
  | ok value =>
    cases result' with
    | error fault' => cases hresult
    | ok value' =>
      have hview : view value = view value' := Except.ok.inj hresult
      show Trace.andThen _ next = Trace.andThen _ next'
      unfold Trace.andThen
      dsimp only
      rw [hnext value value' hview]

/-- What is written of a clause: its text and its names. -/
def Where.face (clause : Where) : String × List String := (clause.sql, clause.names)

/-- **Clauses.** Lists that are alike compile to the same text with the same names, or
are refused for the same fault, and the same is reported on the way. -/
theorem Where.compileTraced_alike {policy : Policy} {criteria criteria' : List Criterion}
    (h : List.Forall₂ (Criterion.Alike policy) criteria criteria') (debug : Bool) :
    (compileTraced debug policy criteria).Agrees face (compileTraced debug policy criteria') := by
  unfold compileTraced
  have hlength := h.length_eq
  rw [isEmpty_eq_of_forall₂ h]
  split
  · exact ⟨rfl, rfl⟩
  · rcases planAll_alike h with ⟨fault, hleft, hright⟩ | ⟨plans, plans', hleft, hright, halike⟩
    · rw [hleft, hright]
      exact ⟨rfl, rfl⟩
    · have hnames := names_alike halike
      have hcount : (plans.flatMap Plan.slots).length = (plans'.flatMap Plan.slots).length := by
        rw [← List.length_map (f := Binding.name), hnames, List.length_map]
      rw [hleft, hright]
      refine ⟨?_, ?_⟩
      · simp only [Trace.events_bind, Trace.result_report, Trace.result_reportDetail,
          Trace.result_ofExcept, Trace.events_ofExcept, Trace.events_report,
          Trace.events_reportDetail, Trace.events_pure, ofPlans, conditions_alike halike,
          Layout.ofPlans_alike halike, hlength, hcount]
      · show Except.ok (face (ofPlans plans)) = Except.ok (face (ofPlans plans'))
        unfold face ofPlans names
        rw [Layout.ofPlans_alike halike, hnames]

/-! ## Assignments -/

/-- What is made of each row and its index, when rows at one index cannot be told apart. -/
theorem map_zipIdx_eq {α β : Type} {R : α → α → Prop} (make : α → Nat → β)
    (hmake : ∀ row row' index, R row row' → make row index = make row' index)
    {rows rows' : List α} (h : List.Forall₂ R rows rows') :
    ∀ start : Nat, ((rows.zipIdx start).map fun (row, index) => make row index)
      = (rows'.zipIdx start).map fun (row, index) => make row index := by
  induction h with
  | nil => intro start; rfl
  | cons hrow _ ih =>
    intro start
    exact congrArg₂ List.cons (hmake _ _ start hrow) (ih (start + 1))

namespace Assignment

/-- Alike assignments have the same cell: its value is written only where it is the same. -/
theorem Alike.cell_eq {assignment assignment' : Assignment} (h : assignment.Alike assignment')
    (row : Option Nat) : assignment.cell row = assignment'.cell row := by
  unfold cell
  rw [h.column, h.bound]
  split
  · rfl
  · next hbound => rw [h.value (by rw [h.bound, Bool.eq_false_iff]; exact hbound)]

variable {assignments assignments' : List Assignment}

/-- Alike assignments are for the same columns. -/
theorem columns_alike (h : List.Forall₂ Alike assignments assignments') :
    columns assignments = columns assignments' := by
  unfold columns
  induction h with
  | nil => rfl
  | cons hfirst _ ih => rw [List.map_cons, List.map_cons, hfirst.column, ih]

theorem columnList_alike (h : List.Forall₂ Alike assignments assignments') :
    columnList assignments = columnList assignments' := by
  unfold columnList
  rw [columns_alike h]

theorem placeholders_alike (h : List.Forall₂ Alike assignments assignments')
    (row : Option Nat) : placeholders row assignments = placeholders row assignments' := by
  unfold placeholders
  induction h with
  | nil => rfl
  | cons hfirst _ ih =>
    rw [List.filter_cons, List.filter_cons, hfirst.bound]
    split
    · rw [List.map_cons, List.map_cons, hfirst.column, ih]
    · exact ih

theorem settings_alike (h : List.Forall₂ Alike assignments assignments') :
    settings assignments = settings assignments' := by
  unfold settings
  congr 1
  induction h with
  | nil => rfl
  | cons hfirst _ ih =>
    rw [List.map_cons, List.map_cons, hfirst.column, hfirst.cell_eq, ih]

theorem tuple_alike (h : List.Forall₂ Alike assignments assignments') (row : Option Nat) :
    tuple row assignments = tuple row assignments' := by
  unfold tuple
  congr 3
  induction h with
  | nil => rfl
  | cons hfirst _ ih => rw [List.map_cons, List.map_cons, hfirst.cell_eq, ih]

variable {rows rows' : List (List Assignment)}

/-- Rows of alike assignments have the same placeholders. -/
theorem rowPlaceholders_alike (h : List.Forall₂ (List.Forall₂ Alike) rows rows') :
    rowPlaceholders rows = rowPlaceholders rows' := by
  unfold rowPlaceholders
  exact congrArg List.flatten (map_zipIdx_eq (fun row index => placeholders (some index) row)
    (fun _ _ index hrow => placeholders_alike hrow (some index)) h 0)

theorem tuples_alike (h : List.Forall₂ (List.Forall₂ Alike) rows rows') :
    tuples rows = tuples rows' := by
  unfold tuples
  exact congrArg _ (map_zipIdx_eq (fun row index => tuple (some index) row)
    (fun _ _ index hrow => tuple_alike hrow (some index)) h 0)

/-- What is refused is the index of the first row whose columns differ. -/
theorem checkColumns_cons (first : List Assignment) (rest : List (List Assignment)) :
    checkColumns (first :: rest)
      = (((first :: rest).zipIdx.find? fun (row, _) => columns row != columns first).map
          Prod.snd).elim (.ok ()) fun index => .error (.of (.inconsistentBatchRow index)) := by
  unfold checkColumns
  dsimp only
  cases (first :: rest).zipIdx.find? fun (row, _) => columns row != columns first <;> rfl

/-- Only the columns of the rows are compared. -/
theorem checkColumns_alike (h : List.Forall₂ (List.Forall₂ Alike) rows rows') :
    checkColumns rows = checkColumns rows' := by
  have hcolumns := map_zipIdx_eq (fun row index => (columns row, index))
    (fun _ _ index hrow => by rw [columns_alike hrow]) h 0
  -- The search of the rows is a search of their columns, of which the index alone is kept.
  have hfind : ∀ (expected : List String) (rows : List (List Assignment)),
      (rows.zipIdx.find? fun (row, _) => columns row != expected).map Prod.snd
        = ((rows.zipIdx.map fun (row, index) => (columns row, index)).find?
            fun (found, _) => found != expected).map Prod.snd := by
    intro expected rows
    rw [List.find?_map, Option.map_map]
    rfl
  cases h with
  | nil => rfl
  | @cons first first' rest rest' hfirst hrest =>
    have hsame := hfind (columns first) (first :: rest)
    rw [hcolumns, ← hfind, columns_alike hfirst] at hsame
    rw [checkColumns_cons, checkColumns_cons, columns_alike hfirst, hsame]

end Assignment

/-! ## Statements -/

namespace Builder

variable {builder : Builder} {criteria criteria' : List Criterion}
  {assignments assignments' : List Assignment} {rows rows' : List (List Assignment)}

/-- Nothing that goes on with the text and the names of a clause tells two lists apart. -/
theorem clause_bind_alike
    (h : List.Forall₂ (Criterion.Alike builder.policy.policy) criteria criteria')
    {next next' : Where → Trace String}
    (hnext : ∀ clause clause' : Where, clause.sql = clause'.sql → clause.names = clause'.names →
      next clause = next' clause') :
    builder.clause criteria >>= next = builder.clause criteria' >>= next' := by
  refine (Where.compileTraced_alike h builder.debug).bind_eq fun clause clause' hface => ?_
  exact hnext clause clause' (congrArg Prod.fst hface) (congrArg Prod.snd hface)

/-- A selection is the same for alike criteria. -/
theorem select_alike
    (h : List.Forall₂ (Criterion.Alike builder.policy.policy) criteria criteria')
    (projection : Projection) (order : Option String) (page : Page) :
    builder.select criteria projection order page
      = builder.select criteria' projection order page := by
  unfold select
  congr 1
  funext selection
  apply clause_bind_alike h
  intro clause clause' hsql _
  rw [hsql]

theorem count_alike
    (h : List.Forall₂ (Criterion.Alike builder.policy.policy) criteria criteria') :
    builder.count criteria = builder.count criteria' := by
  unfold count
  congr 1
  funext selection
  apply clause_bind_alike h
  intro clause clause' hsql _
  rw [hsql]

theorem delete_alike
    (h : List.Forall₂ (Criterion.Alike builder.policy.policy) criteria criteria')
    (page : Page) : builder.delete criteria page = builder.delete criteria' page := by
  unfold delete
  congr 1
  funext table
  apply clause_bind_alike h
  intro clause clause' hsql _
  rw [hsql]

/-- An update is the same for alike criteria and assignments. -/
theorem update_alike
    (hcriteria : List.Forall₂ (Criterion.Alike builder.policy.policy) criteria criteria')
    (hassignments : List.Forall₂ Assignment.Alike assignments assignments') (page : Page) :
    builder.update criteria assignments page = builder.update criteria' assignments' page := by
  have hrest : ∀ table : Table,
      (do
        let clause ← builder.clause criteria
        Trace.ofExcept (Assignment.claim "updateQuery" (clause.names ++ page.names)
          (Assignment.placeholders none assignments))
        built ("UPDATE " ++ table.quotedName ++ " SET " ++ Assignment.settings assignments
          ++ clause.sql ++ page.clause ++ ";") (.update table.name assignments.length))
      = (do
        let clause ← builder.clause criteria'
        Trace.ofExcept (Assignment.claim "updateQuery" (clause.names ++ page.names)
          (Assignment.placeholders none assignments'))
        built ("UPDATE " ++ table.quotedName ++ " SET " ++ Assignment.settings assignments'
          ++ clause.sql ++ page.clause ++ ";") (.update table.name assignments'.length)) := by
    intro table
    apply clause_bind_alike hcriteria
    intro clause clause' hsql hnames
    rw [hsql, hnames, Assignment.placeholders_alike hassignments,
      Assignment.settings_alike hassignments, hassignments.length_eq]
  unfold update
  simp only [isEmpty_eq_of_forall₂ hassignments, hrest]

theorem insert_alike (h : List.Forall₂ Assignment.Alike assignments assignments') :
    builder.insert assignments = builder.insert assignments' := by
  unfold insert
  rw [isEmpty_eq_of_forall₂ h, Assignment.placeholders_alike h, Assignment.columnList_alike h,
    Assignment.tuple_alike h, h.length_eq]

theorem insertRows_alike
    (h : List.Forall₂ (List.Forall₂ Assignment.Alike) rows rows') :
    builder.insertRows rows = builder.insertRows rows' := by
  have hfirst : List.Forall₂ Assignment.Alike (rows.headD []) (rows'.headD []) := by
    cases h with
    | nil => exact List.Forall₂.nil
    | cons hrow _ => exact hrow
  unfold insertRows checkRows
  dsimp only
  rw [isEmpty_eq_of_forall₂ hfirst, Assignment.checkColumns_alike h,
    Assignment.rowPlaceholders_alike h, Assignment.columnList_alike hfirst,
    Assignment.tuples_alike h, h.length_eq]

end Builder

/-! ## Two runs -/

/-- **Bound data stays out of the text.** Inputs that differ in what is bound alone have
the same clause with the same names, and every statement made of them is the same text
and reports the same, or else the fault is the same. -/
theorem bound_data_unseen {policy : Policy} {criteria criteria' : List Criterion}
    {assignments assignments' : List Assignment} {rows rows' : List (List Assignment)}
    (hcriteria : List.Forall₂ (Criterion.Alike policy) criteria criteria')
    (hassignments : List.Forall₂ Assignment.Alike assignments assignments')
    (hrows : List.Forall₂ (List.Forall₂ Assignment.Alike) rows rows') :
    (Where.compile policy criteria).map Where.face
        = (Where.compile policy criteria').map Where.face ∧
      ∀ builder : Builder, builder.policy.policy = policy →
        ∀ (projection : Projection) (order : Option String) (page : Page),
          builder.select criteria projection order page
              = builder.select criteria' projection order page ∧
            builder.count criteria = builder.count criteria' ∧
            builder.delete criteria page = builder.delete criteria' page ∧
            builder.update criteria assignments page
              = builder.update criteria' assignments' page ∧
            builder.insert assignments = builder.insert assignments' ∧
            builder.insertRows rows = builder.insertRows rows' := by
  refine ⟨(Where.compileTraced_alike hcriteria false).result, ?_⟩
  intro builder hpolicy projection order page
  subst hpolicy
  exact ⟨Builder.select_alike hcriteria projection order page, Builder.count_alike hcriteria,
    Builder.delete_alike hcriteria page, Builder.update_alike hcriteria hassignments page,
    Builder.insert_alike hassignments, Builder.insertRows_alike hrows⟩

/-- Conditions on a person, with a value behind a null test that is never looked at. -/
def confidential (name : String) (low high : Int64) : List Criterion :=
  [ Criterion.equals "name" (.text name),
    Criterion.isIn "grade" [.int low, .int high],
    { Criterion.isNull "retired" with value := some (.int high) } ]

/-- What is stored of a person. -/
def personnel (name : String) (kind : BindType) : List Assignment :=
  [ { column := "name", value := .text name, bindType := some kind },
    Assignment.raw "changed" "NOW()" ]

/-- A text that looks like a condition, and numbers that stand for grades, are exchanged for
others. -/
theorem bound_data_unseen_confidential :
    let builder : Builder := { registry := .single "staff" }
    (Where.compile {} (confidential "Ann" 1 2)).map Where.face
        = (Where.compile {} (confidential "' OR 1 = 1" 3 4)).map Where.face ∧
      builder.update (confidential "Ann" 1 2) (personnel "Ann" .text) {}
        = builder.update (confidential "' OR 1 = 1" 3 4) (personnel "'" .large) {} ∧
      builder.insertRows [personnel "Ann" .text] = builder.insertRows [personnel "'" .large] ∧
      (builder.update (confidential "' OR 1 = 1" 3 4) (personnel "'" .large) {}).result
        = .ok ("UPDATE `staff` SET name = :name, changed = NOW() WHERE name = :name1 AND "
          ++ "grade IN (:grade20,:grade21) AND retired IS NULL;") ∧
      (builder.insertRows [personnel "'" .large]).result
        = .ok "INSERT INTO `staff` (name,changed) VALUES (:name0,NOW());" := by
  have hcriteria : List.Forall₂ (Criterion.Alike {}) (confidential "Ann" 1 2)
      (confidential "' OR 1 = 1" 3 4) := by
    refine .cons ?_ (.cons ?_ (.cons ?_ .nil))
    · exact ⟨rfl, rfl, rfl, rfl, fun _ => rfl⟩
    · exact ⟨rfl, rfl, rfl, rfl, fun _ => rfl⟩
    · exact ⟨rfl, rfl, rfl, rfl, fun htakes => by cases htakes⟩
  have hassignments : List.Forall₂ Assignment.Alike (personnel "Ann" .text)
      (personnel "'" .large) := by
    refine .cons ?_ (.cons ?_ .nil)
    · exact ⟨rfl, rfl, fun hbound => by cases hbound⟩
    · exact ⟨rfl, rfl, fun _ => rfl⟩
  obtain ⟨hclause, hbuilder⟩ :=
    bound_data_unseen hcriteria hassignments (.cons hassignments .nil)
  obtain ⟨-, -, -, hupdate, -, hrows⟩ :=
    hbuilder { registry := .single "staff" } rfl .all none {}
  exact ⟨hclause, hupdate, hrows, by decide +kernel, by decide +kernel⟩

end BoundSql
