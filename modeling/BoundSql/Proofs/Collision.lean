import BoundSql.Proofs.Naming
import BoundSql.Proofs.Overhearing

/-!
# Names that collide

Names of three kinds meet in a statement: those of the criteria, those of the
assignments or of the rows of a batch, and those of the page. Every builder
looks for collisions in its own way and at its own time. What they find is the
same, the repetitions among the names that binding hands over:

> `Builder.collisions_exact`: where nothing else is wrong, planning, an update,
> an insertion and a batch are refused exactly when one of their names occurs
> twice, and then for a collision.

Criteria are never compared with the page, and need not be: the names of a page
do not end in a digit (`nodup_around_iff`).

Binding itself compares less than building does. What it leaves out is the
condition of `Builder.bound_once_iff`: assignments that are bound directly may
take each other's names and those of everything else, and rows may take those
of criteria. The value bound last then counts.
-/

namespace BoundSql

open Placeholder

/-- What is made of a value is refused for what the value is refused for. -/
theorem map_eq_error_iff {α β : Type} {result : Except Fault α} {make : α → β} {fault : Fault} :
    result.map make = .error fault ↔ result = .error fault := by
  cases result with
  | error other => rw [Except.map, Except.error.injEq, Except.error.injEq]
  | ok value =>
    constructor
    · intro h
      cases h
    · intro h
      cases h

/-- A result is refused exactly when some names repeat, and then for a collision. -/
structure RefusesRepeats {α : Type} (result : Except Fault α) (names : List String) : Prop where
  refused_iff : (∃ fault, result = .error fault) ↔ ¬ names.Nodup
  code : ∀ fault, result = .error fault → fault.code = .placeholderCollision

namespace RefusesRepeats

variable {α β : Type} {result : Except Fault α} {names : List String}

/-- It is enough to know when there is a value. -/
theorem of_ok_iff (hok : (∃ value, result = .ok value) ↔ names.Nodup)
    (hcode : ∀ fault, result = .error fault → fault.code = .placeholderCollision) :
    RefusesRepeats result names := by
  refine ⟨?_, hcode⟩
  rw [← hok]
  cases result with
  | error fault =>
    refine ⟨fun _ hvalue => ?_, fun _ => ⟨fault, rfl⟩⟩
    obtain ⟨_, hvalue⟩ := hvalue
    cases hvalue
  | ok value =>
    refine ⟨fun hfault => ?_, fun hnone => absurd ⟨value, rfl⟩ hnone⟩
    obtain ⟨_, hfault⟩ := hfault
    cases hfault

/-- What is made of the value has no part in it. -/
theorem map (h : RefusesRepeats result names) (make : α → β) :
    RefusesRepeats (result.map make) names := by
  refine ⟨?_, fun fault hfault => h.code fault (map_eq_error_iff.mp hfault)⟩
  rw [← h.refused_iff]
  exact exists_congr fun fault => map_eq_error_iff

/-- Claiming names is refused for what the claim runs into. -/
theorem claim {operation : String} {taken claimed : List String}
    (h : names.Nodup ↔ claimed.Nodup ∧ ∀ name ∈ claimed, name ∉ taken) :
    RefusesRepeats (Assignment.claim operation taken claimed) names := by
  refine of_ok_iff ?_ fun fault => Assignment.code_of_claim
  rw [h, ← Assignment.claim_eq_ok_iff]
  exact ⟨fun ⟨_, hok⟩ => hok, fun hok => ⟨(), hok⟩⟩

end RefusesRepeats

/-! ## Criteria -/

/-- Criteria that pass the checks can only be refused for a collision. -/
theorem code_of_planFrom {policy : Policy} : ∀ {criteria : List Criterion} {position : Nat}
    {taken : List String} {fault : Fault},
      (∀ criterion ∈ criteria, criterion.cause? policy = none) →
      planFrom policy position taken criteria = .error fault →
      fault.code = .placeholderCollision := by
  intro criteria
  induction criteria with
  | nil =>
    intro position taken fault _ h
    cases h
  | cons criterion rest ih =>
    intro position taken fault hall h
    obtain ⟨hcriterion, hrest⟩ := List.forall_mem_cons.mp hall
    rw [planFrom_cons, hcriterion] at h
    dsimp only at h
    split at h
    -- Either a name is taken here, or the fault is one of the rest.
    · cases h
      rfl
    · cases hplans : planFrom policy (position + 1)
          ((criterion.planned policy position).names ++ taken) rest with
      | error other =>
        rw [hplans] at h
        cases h
        exact ih hrest hplans
      | ok plans =>
        rw [hplans] at h
        cases h

/-- A criterion passes the check if there is no cause to refuse it. -/
theorem Criterion.check_eq_ok_iff {policy : Policy} {criterion : Criterion} :
    criterion.check policy = .ok () ↔ criterion.cause? policy = none := by
  unfold check
  cases criterion.cause? policy with
  | none => exact ⟨fun _ => rfl, fun _ => rfl⟩
  | some cause =>
    constructor
    · intro h
      cases h
    · intro h
      cases h

/-- Planning refuses criteria that pass the checks for repeated names alone. -/
theorem planAll_refusesRepeats {policy : Policy} {criteria : List Criterion}
    (h : ∀ criterion ∈ criteria, criterion.check policy = .ok ()) :
    RefusesRepeats (planAll policy criteria)
      ((planned policy criteria).flatMap Plan.names) := by
  have hchecks : ∀ criterion ∈ criteria, criterion.cause? policy = none :=
    fun criterion hcriterion => Criterion.check_eq_ok_iff.mp (h criterion hcriterion)
  refine .of_ok_iff ?_ fun fault => code_of_planFrom hchecks
  constructor
  · intro hplans
    obtain ⟨plans, hplans⟩ := hplans
    exact (planAll_eq_ok_iff.mp hplans).1.nodup
  · intro hnodup
    exact ⟨_, planAll_eq_ok_iff.mpr ⟨⟨hchecks, hnodup⟩, rfl⟩⟩

/-- So does compiling, which plans the whole list first. -/
theorem Where.compile_refusesRepeats {policy : Policy} {criteria : List Criterion}
    (h : ∀ criterion ∈ criteria, criterion.check policy = .ok ()) :
    RefusesRepeats (compile policy criteria) ((planned policy criteria).flatMap Plan.names) := by
  by_cases hne : criteria = []
  · subst hne
    refine .of_ok_iff ⟨fun _ => List.nodup_nil, fun _ => ⟨empty, compile_nil policy⟩⟩ ?_
    intro fault hfault
    cases hfault
  · rw [compile_eq_map hne]
    exact (planAll_refusesRepeats h).map ofPlans

/-! ## The names that are handed over -/

/-- Names between two rows of names that are fine by themselves: all are distinct exactly
when the names between are, and keep clear of the others. -/
theorem nodup_between_iff {first middle last : List String} (hfirst : first.Nodup)
    (hlast : last.Nodup) (hapart : ∀ name ∈ first, name ∉ last) :
    (first ++ middle ++ last).Nodup ↔
      middle.Nodup ∧ ∀ name ∈ middle, name ∉ first ++ last := by
  constructor
  · intro h
    obtain ⟨hfront, -, hback⟩ := List.nodup_append.mp h
    obtain ⟨-, hmiddle, hmeet⟩ := List.nodup_append.mp hfront
    refine ⟨hmiddle, fun name hname htaken => ?_⟩
    rcases List.mem_append.mp htaken with htaken | htaken
    · exact hmeet name htaken name hname rfl
    · exact hback name (List.mem_append_right _ hname) name htaken rfl
  · intro h
    obtain ⟨hmiddle, hfree⟩ := h
    refine List.nodup_append.mpr ⟨List.nodup_append.mpr ⟨hfirst, hmiddle, ?_⟩, hlast, ?_⟩
    · rintro name hname other hother rfl
      exact hfree name hother (List.mem_append_left _ hname)
    · rintro name hname other hother rfl
      rcases List.mem_append.mp hname with hname | hname
      · exact hapart name hname hother
      · exact hfree name hname (List.mem_append_right _ hother)

/-- Names of criteria and of a page never meet, so only the names between them matter. -/
theorem nodup_around_iff {policy : Policy} {criteria : List Criterion}
    (h : Accepted policy criteria) (names : List String) (page : Page) :
    ((planned policy criteria).flatMap Plan.names ++ names ++ page.names).Nodup ↔
      names.Nodup ∧
        ∀ name ∈ names, name ∉ (planned policy criteria).flatMap Plan.names ++ page.names := by
  refine nodup_between_iff h.nodup page.nodup_names fun name hname hpage => ?_
  exact Page.not_endsInDigit_of_mem_names hpage (planned_names hname).2

/-- The name of a cell in a batch ends in the number of its row. -/
theorem Assignment.endsInDigit_of_mem_rowPlaceholders {rows : List (List Assignment)}
    {name : String} (h : name ∈ rowPlaceholders rows) : EndsInDigit name := by
  obtain ⟨⟨row, index⟩, -, hname⟩ := List.mem_flatMap.mp h
  obtain ⟨assignment, -, rfl⟩ := List.mem_map.mp hname
  exact endsInDigit_append_toString _ index

/-- Nor do names of rows meet those of a page. -/
theorem Assignment.not_mem_page_of_mem_rowPlaceholders {rows : List (List Assignment)}
    {name : String} (h : name ∈ rowPlaceholders rows) (page : Page) : name ∉ page.names :=
  fun hpage => Page.not_endsInDigit_of_mem_names hpage (endsInDigit_of_mem_rowPlaceholders h)

/-! ## Tables -/

namespace Registry

/-- There is a table, and every table but the first has a condition to be joined on. -/
def Valid (registry : Registry) : Prop :=
  registry.isEmpty = false ∧ ∀ entry ∈ registry.tables.entries.tail, entry.2.on.isEmpty = false

/-- A registry with a table has a primary one. -/
theorem primary_of_isEmpty_eq_false {registry : Registry} (h : registry.isEmpty = false) :
    ∃ table, registry.primary = .ok table := by
  unfold isEmpty KeyedList.isEmpty at h
  unfold primary
  cases hentries : registry.tables.entries with
  | nil =>
    rw [hentries] at h
    cases h
  | cons entry rest => exact ⟨entry.2, rfl⟩

/-- Tables with conditions can all be joined. -/
theorem joins_of_conditions {joined : List (String × Table)}
    (h : ∀ entry ∈ joined, entry.2.on.isEmpty = false) :
    ∃ joins, (joined.mapM fun (tableAlias, table) => table.join tableAlias) = .ok joins := by
  refine ⟨joined.map fun entry =>
    " JOIN " ++ entry.2.aliased entry.1 ++ " ON " ++ entry.2.condition, mapM_eq_ok_iff.mpr ?_⟩
  rw [List.forall₂_map_right_iff, List.forall₂_same]
  intro entry hentry
  show entry.2.join entry.1 = _
  rw [Table.join, h entry hentry]
  rfl

/-- A valid registry can be selected from. -/
theorem Valid.selectFrom {registry : Registry} (h : registry.Valid) (columns : String) :
    ∃ selection, registry.selectFrom columns = .ok selection := by
  obtain ⟨hne, hjoined⟩ := h
  unfold Registry.selectFrom
  cases hentries : registry.tables.entries with
  | nil =>
    rw [isEmpty, KeyedList.isEmpty, hentries] at hne
    cases hne
  | cons entry rest =>
    rw [hentries] at hjoined
    obtain ⟨joins, hjoins⟩ := joins_of_conditions hjoined
    exact ⟨_, bind_eq_ok_iff.mpr ⟨joins, hjoins, rfl⟩⟩

end Registry

/-! ## Statements -/

namespace Builder

variable {builder : Builder} {criteria : List Criterion} {assignments : List Assignment}
  {rows : List (List Assignment)} {page : Page} {table : Table} {clause : Where}

/-- An update whose parts are fine stands or falls with its claim. -/
theorem result_update (hne : assignments ≠ []) (htable : builder.registry.primary = .ok table)
    (hclause : Where.compile builder.policy.policy criteria = .ok clause) :
    (builder.update criteria assignments page).result
      = (Assignment.claim "updateQuery" (clause.names ++ page.names)
          (Assignment.placeholders none assignments)).map fun _ =>
        "UPDATE " ++ table.quotedName ++ " SET " ++ Assignment.settings assignments
          ++ clause.sql ++ page.clause ++ ";" := by
  have hsome : assignments.isEmpty = false := List.isEmpty_eq_false_iff.mpr hne
  unfold update
  simp only [hsome, Bool.false_eq_true, if_false, Trace.result_bind, Trace.result_ofExcept,
    result_clause, result_built, htable, hclause, Except.bind]
  cases Assignment.claim "updateQuery" (clause.names ++ page.names)
    (Assignment.placeholders none assignments) <;> rfl

/-- An insertion that has assignments and a table depends on its names alone. -/
theorem result_insert (hne : assignments ≠ []) (htable : builder.registry.primary = .ok table) :
    (builder.insert assignments).result
      = (Assignment.claim "insertQuery" [] (Assignment.placeholders none assignments)).map
        fun _ => "INSERT INTO " ++ table.quotedName ++ " " ++ Assignment.columnList assignments
          ++ " VALUES " ++ Assignment.tuple none assignments ++ ";" := by
  have hsome : assignments.isEmpty = false := List.isEmpty_eq_false_iff.mpr hne
  unfold insert
  simp only [hsome, Bool.false_eq_true, if_false, Trace.result_bind, Trace.result_ofExcept,
    result_built, htable, Except.bind]
  cases Assignment.claim "insertQuery" [] (Assignment.placeholders none assignments) <;> rfl

/-- Of rows that go together nothing but the names is left to check. -/
theorem checkRows_of_sameColumns {operation : String} (h : Assignment.SameColumns rows) :
    checkRows operation rows
      = Assignment.claim operation [] (Assignment.rowPlaceholders rows) := by
  unfold checkRows
  rw [Assignment.checkColumns_eq_ok_iff.mpr h]
  rfl

/-- A batch that has rows that go together and a table depends on its names alone. -/
theorem result_insertRows (hne : rows.headD [] ≠ []) (hcolumns : Assignment.SameColumns rows)
    (htable : builder.registry.primary = .ok table) :
    (builder.insertRows rows).result
      = (Assignment.claim "batchInsertQuery" [] (Assignment.rowPlaceholders rows)).map
        fun _ => "INSERT INTO " ++ table.quotedName ++ " "
          ++ Assignment.columnList (rows.headD []) ++ " VALUES " ++ Assignment.tuples rows
          ++ ";" := by
  have hsome : (rows.headD []).isEmpty = false := List.isEmpty_eq_false_iff.mpr hne
  unfold insertRows
  simp only [hsome, Bool.false_eq_true, if_false, Trace.result_bind, Trace.result_ofExcept,
    result_built, htable, checkRows_of_sameColumns hcolumns, Except.bind]
  cases Assignment.claim "batchInsertQuery" [] (Assignment.rowPlaceholders rows) <;> rfl

/-- A statement made of a clause and a part that is there stands or falls with its clause. -/
theorem part_clause_eq_error_iff {α : Type} {part : Except Fault α} {value : α}
    (hpart : part = .ok value) (text : α → Where → String) (kind : α → Where → Built)
    (fault : Fault) :
    (do
        let value ← Trace.ofExcept part
        let clause ← builder.clause criteria
        built (text value clause) (kind value clause)).result = .error fault ↔
      Where.compile builder.policy.policy criteria = .error fault := by
  simp only [Trace.result_bind, Trace.result_ofExcept, result_clause, result_built, hpart,
    Except.bind]
  cases Where.compile builder.policy.policy criteria with
  | error other =>
    dsimp only
    rw [Except.error.injEq, Except.error.injEq]
  | ok clause => exact iff_of_false nofun nofun

/-- A selection from valid tables is refused for what its clause is refused for. -/
theorem select_eq_error_iff (h : builder.registry.Valid) (projection : Projection)
    (order : Option String) (fault : Fault) :
    (builder.select criteria projection order page).result = .error fault ↔
      Where.compile builder.policy.policy criteria = .error fault := by
  obtain ⟨selection, hselection⟩ := h.selectFrom projection.sql
  unfold select
  exact part_clause_eq_error_iff hselection _ _ fault

/-- A deletion from a table is refused for its criteria or not at all. -/
theorem delete_eq_error_iff (h : builder.registry.isEmpty = false) (fault : Fault) :
    (builder.delete criteria page).result = .error fault ↔
      Where.compile builder.policy.policy criteria = .error fault := by
  obtain ⟨table, htable⟩ := Registry.primary_of_isEmpty_eq_false h
  unfold delete
  exact part_clause_eq_error_iff htable _ _ fault

/-- **Collisions are found exactly.** Criteria that pass the checks one by one are refused
exactly when two of their slots have one name. An update of compiled criteria is refused
exactly when a name is repeated among all that its binding hands over, an insertion when
two of its placeholders are the same, and a batch of rows with the same columns when a
name is repeated among all that binding the rows hands over. All of that is for a
collision. Selecting and deleting are refused for what the criteria are refused for. -/
theorem collisions_exact (policy : Policy) (builder : Builder) (criteria : List Criterion)
    (assignments : List Assignment) (rows : List (List Assignment)) (page : Page) :
    ((∀ criterion ∈ criteria, criterion.check policy = .ok ()) →
        RefusesRepeats (planAll policy criteria)
            ((planned policy criteria).flatMap Plan.names) ∧
          RefusesRepeats (Where.compile policy criteria)
            ((planned policy criteria).flatMap Plan.names)) ∧
      (assignments ≠ [] → builder.registry.isEmpty = false →
        (∀ clause, Where.compile builder.policy.policy criteria = .ok clause →
            RefusesRepeats (builder.update criteria assignments page).result
              ((Request.values criteria assignments page).names builder)) ∧
          RefusesRepeats (builder.insert assignments).result
            (Assignment.placeholders none assignments)) ∧
      (rows.headD [] ≠ [] → Assignment.SameColumns rows → builder.registry.isEmpty = false →
        RefusesRepeats (builder.insertRows rows).result
          ((Request.batch [] rows page).names builder)) ∧
      (builder.registry.Valid →
        ∀ (projection : Projection) (order : Option String) (fault : Fault),
          ((builder.select criteria projection order page).result = .error fault ↔
              Where.compile builder.policy.policy criteria = .error fault) ∧
            ((builder.delete criteria page).result = .error fault ↔
              Where.compile builder.policy.policy criteria = .error fault)) ∧
      ∀ (σ : Type) [Prepared σ] (request : Request) (statement : σ),
        (request.bind builder statement).trace.result = .ok () →
          (request.bind builder (Overheard.of statement)).statement.heard.map Binding.name
            = request.names builder := by
  refine ⟨fun hchecks => ⟨planAll_refusesRepeats hchecks, Where.compile_refusesRepeats hchecks⟩,
    fun hne hregistry => ?_, fun hne hcolumns hregistry => ?_,
    fun hvalid projection order fault => ?_,
    fun σ _ request statement hok => (Request.heard_of_ok hok).2.2⟩
  · obtain ⟨table, htable⟩ := Registry.primary_of_isEmpty_eq_false hregistry
    constructor
    · intro clause hclause
      rw [result_update hne htable hclause, Where.names_of_compile hclause]
      refine (RefusesRepeats.claim ?_).map _
      rw [Request.names_values]
      exact nodup_around_iff (Where.accepted_of_compile hclause).1 _ page
    · rw [result_insert hne htable]
      refine (RefusesRepeats.claim ?_).map _
      exact ⟨fun h => ⟨h, fun _ _ => List.not_mem_nil⟩, fun h => h.1⟩
  · obtain ⟨table, htable⟩ := Registry.primary_of_isEmpty_eq_false hregistry
    rw [result_insertRows hne hcolumns htable]
    refine (RefusesRepeats.claim ?_).map _
    rw [Request.names_batch]
    refine (nodup_between_iff List.nodup_nil page.nodup_names
      fun _ hname => (List.not_mem_nil hname).elim).trans ?_
    rw [List.nil_append]
    -- The claim of a batch looks at no page, and there is nothing that it would find there.
    refine and_congr_right fun _ => forall₂_congr fun name hname => ?_
    exact iff_of_true (Assignment.not_mem_page_of_mem_rowPlaceholders hname page)
      List.not_mem_nil
  · exact ⟨select_eq_error_iff hvalid projection order fault,
      delete_eq_error_iff hvalid.1 fault⟩

/-- Two conditions, of which the last element of the one and the value of the other share
a name. -/
def spelledAlike : List Criterion :=
  [ Criterion.isIn "a" [.int 1, .int 2, .int 3],
    Criterion.equals "a1" (.int 4) ]

/-- Rows of two columns, whose names meet in the eleventh row. -/
def numbered (rows : Nat) : List (List Assignment) :=
  List.replicate rows
    [{ column := "a", value := .int 1 }, { column := "a1", value := .int 2 }]

/-- An update and an insertion of the same column: the criterion is met by the one only. Rows do
not collide before there are eleven of them. -/
theorem collisions_exact_spelledAlike :
    let builder : Builder := { registry := .single "users" }
    let assignments : List Assignment := [{ column := "a1", value := .int 2 }]
    (∃ fault, planAll {} spelledAlike = .error fault ∧ fault.code = .placeholderCollision) ∧
      (∃ fault, (builder.update [Criterion.equals "a" (.int 1)] assignments {}).result
        = .error fault ∧ fault.code = .placeholderCollision) ∧
      (¬ ∃ fault, (builder.insert assignments).result = .error fault) ∧
      (¬ ∃ fault, (builder.insertRows (numbered 10)).result = .error fault) ∧
      (∃ fault, (builder.insertRows (numbered 11)).result = .error fault) ∧
      ∃ fault, (builder.delete spelledAlike {}).result = .error fault := by
  have hregistry : (Registry.single "users").isEmpty = false := by decide
  have hvalid : (Registry.single "users").Valid := ⟨hregistry, fun _ h => by cases h⟩
  have hchecks : ∀ criterion ∈ spelledAlike, criterion.check {} = .ok () := by decide +kernel
  obtain ⟨clause, hclause⟩ : ∃ clause,
      Where.compile {} [Criterion.equals "a" (.int 1)] = .ok clause := ⟨_, rfl⟩
  obtain ⟨hcriteria, -, hten, hselection, -⟩ := collisions_exact {}
    { registry := .single "users" } spelledAlike [] (numbered 10) {}
  obtain ⟨-, hassignments, heleven, -, -⟩ := collisions_exact {}
    { registry := .single "users" } [Criterion.equals "a" (.int 1)]
    [{ column := "a1", value := .int 2 }] (numbered 11) {}
  obtain ⟨hupdate, hinsert⟩ := hassignments (by decide) hregistry
  have hplan := (hcriteria hchecks).1
  have hset := hupdate clause hclause
  obtain ⟨fault, hfault⟩ := hplan.refused_iff.mpr (by decide +kernel)
  obtain ⟨other, hother⟩ := hset.refused_iff.mpr (by decide +kernel)
  refine ⟨⟨fault, hfault, hplan.code fault hfault⟩, ⟨other, hother, hset.code other hother⟩,
    ?_, ?_, ?_, ?_⟩
  · exact mt hinsert.refused_iff.mp (by decide +kernel)
  · exact mt (hten (by decide) (by decide) hregistry).refused_iff.mp (by decide +kernel)
  · exact (heleven (by decide) (by decide) hregistry).refused_iff.mpr (by decide +kernel)
  · obtain ⟨refused, hrefused⟩ := (hcriteria hchecks).2.refused_iff.mpr (by decide +kernel)
    exact ⟨refused, (hselection hvalid .all none refused).2.mpr hrefused⟩

/-! ## What binding lets through -/

/-- **Bound once or twice.** When the values of a statement are bound without a fault, no
name is handed over twice exactly when the bound assignments have names of their own,
which neither the criteria nor the page use. In a batch the names of the rows are known
to differ from each other and from those of the page, and the criteria are all that is
left to meet. -/
theorem bound_once_iff {σ : Type} [Prepared σ] (builder : Builder) (criteria : List Criterion)
    (assignments : List Assignment) (rows : List (List Assignment)) (page : Page)
    (statement : σ) :
    ((builder.bindValues criteria assignments page statement).trace.result = .ok () →
        (((builder.bindValues criteria assignments page
            (Overheard.of statement)).statement.heard.map Binding.name).Nodup ↔
          (Assignment.placeholders none assignments).Nodup ∧
            ∀ name ∈ Assignment.placeholders none assignments,
              name ∉ (planned builder.policy.policy criteria).flatMap Plan.names
                ++ page.names)) ∧
      ((builder.bindBatch criteria rows page statement).trace.result = .ok () →
        (((builder.bindBatch criteria rows page
            (Overheard.of statement)).statement.heard.map Binding.name).Nodup ↔
          ∀ name ∈ Assignment.rowPlaceholders rows,
            name ∉ (planned builder.policy.policy criteria).flatMap Plan.names)) := by
  constructor
  · intro hok
    have hbind : ((Request.values criteria assignments page).bind builder statement).trace.result
        = .ok () := hok
    obtain ⟨-, haccepted, hheard⟩ := Request.heard_of_ok hbind
    rw [Request.names_values] at hheard
    exact (congrArg List.Nodup hheard).to_iff.trans (nodup_around_iff haccepted _ page)
  · intro hok
    have hbind : ((Request.batch criteria rows page).bind builder statement).trace.result
        = .ok () := hok
    obtain ⟨⟨-, -, hnodup⟩, haccepted, hheard⟩ := Request.heard_of_ok hbind
    rw [Request.names_batch] at hheard
    refine (congrArg List.Nodup hheard).to_iff.trans ((nodup_around_iff haccepted _ page).trans ?_)
    rw [and_iff_right hnodup]
    -- Of what the rows could run into, the page is out of reach.
    refine forall₂_congr fun name hname => ?_
    rw [List.mem_append, or_iff_left]
    · rfl
    · exact Assignment.not_mem_page_of_mem_rowPlaceholders hname page

theorem bound_once_iff_numbered :
    let builder : Builder := {}
    let criteria : List Criterion := [Criterion.equals "a" (.int 1)]
    let page : Page := { limit := 1 }
    ((builder.bindValues criteria [{ column := "name", value := .text "Ann" }] page
        (Overheard.of ({} : Recorder))).statement.heard.map Binding.name).Nodup ∧
      ¬ ((builder.bindBatch criteria (numbered 2) page
        (Overheard.of ({} : Recorder))).statement.heard.map Binding.name).Nodup := by
  obtain ⟨hvalues, hbatch⟩ := bound_once_iff {} [Criterion.equals "a" (.int 1)]
    [{ column := "name", value := .text "Ann" }] (numbered 2) { limit := 1 } ({} : Recorder)
  exact ⟨(hvalues rfl).mpr (by decide +kernel), mt (hbatch rfl).mp (by decide +kernel)⟩

/-- The value of a criterion is lost to that of an assignment, and nothing is said of it. -/
theorem bindValues_binds_twice :
    let delivery := ({} : Builder).bindValues [Criterion.equals "a" (.int 1)]
      [{ column := "a1", value := .int 2 }] {} (Overheard.of ({} : Recorder))
    delivery.trace.result = .ok () ∧
      delivery.statement.heard.map Binding.name = [":a1", ":a1"] ∧
      delivery.statement.statement.get? ":a1" = some ⟨.int 2, .text⟩ :=
  ⟨rfl, rfl, rfl⟩

end Builder

end BoundSql
