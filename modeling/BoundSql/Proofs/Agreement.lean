import BoundSql.Proofs.Overhearing
import BoundSql.Proofs.StatementReading

/-!
# Text and bindings agree

The text of a statement and the bindings that are made for it come from two
walks over the same input. They meet in the names:

> `scan_eq`: a reader of the text finds the names of what is `emitted`, and
> `perm_calls`: these are the bindings that are made, in another order.

No name occurs twice. The criteria have been compared with each other, the
assignments are compared with everything else, and the names of a page end in
a letter, which no name of a criterion does.

What a recorder should have in the end is said once more without any walk, by
what an assignment, a criterion or a page `Stores` under which name:

> `mem_emitted_iff`: what is emitted is what is stored.
-/

namespace BoundSql

open Placeholder

/-- A statement that can be asked of a builder. -/
inductive Query where
  | select (criteria : List Criterion) (projection : Projection) (order : Option String)
      (page : Page)
  | count (criteria : List Criterion)
  | update (criteria : List Criterion) (assignments : List Assignment) (page : Page)
  | delete (criteria : List Criterion) (page : Page)
  | insert (assignments : List Assignment)

namespace Query

/-- Builds the text of a statement. -/
def build (builder : Builder) : Query → Trace String
  | select criteria projection order page => builder.select criteria projection order page
  | count criteria => builder.count criteria
  | update criteria assignments page => builder.update criteria assignments page
  | delete criteria page => builder.delete criteria page
  | insert assignments => builder.insert assignments

/-- The criteria of a statement; an insertion has none. -/
def criteria : Query → List Criterion
  | select criteria _ _ _ => criteria
  | count criteria => criteria
  | update criteria _ _ => criteria
  | delete criteria _ => criteria
  | insert _ => []

/-- The assignments of a statement, which only updates and insertions have. -/
def assignments : Query → List Assignment
  | update _ assignments _ => assignments
  | insert assignments => assignments
  | _ => []

/-- The page of a statement; counts and insertions have none. -/
def page : Query → Page
  | select _ _ _ page => page
  | update _ _ page => page
  | delete _ page => page
  | _ => {}

/-- Binds the values of a statement. -/
def bind {σ : Type} [Prepared σ] (builder : Builder) (query : Query) (statement : σ) :
    Delivery σ :=
  builder.bindValues query.criteria query.assignments query.page statement

/-- The calls by which the values of a statement are bound. -/
def calls (builder : Builder) (query : Query) : List Call :=
  builder.calls query.criteria query.assignments query.page

/-- What a caller has written into the text of a statement outside its clause. -/
def outerTexts (builder : Builder) : Query → List String
  | select _ projection order _ => builder.registry.texts ++ projection.texts ++ order.toList
  | count _ => builder.registry.texts
  | update _ assignments _ =>
    builder.registry.primaryTexts ++ assignments.flatMap Assignment.texts
  | delete _ _ => builder.registry.primaryTexts
  | insert assignments => builder.registry.primaryTexts ++ assignments.flatMap Assignment.texts

/-- What a caller has written into the text of a statement. -/
def texts (builder : Builder) (query : Query) : List String :=
  query.outerTexts builder ++ clauseTexts builder.policy.policy query.criteria

/-- What the placeholders of a statement stand for, in the order of the text: the bound
assignments, the slots of the criteria passage by passage, and the numbers of the page. -/
def emitted (builder : Builder) (query : Query) : List Binding :=
  Assignment.bindings none query.assignments
    ++ (clauseSlots builder.policy.policy query.criteria ++ query.page.numbers)

/-- What a statement has stored under a name, with the type with which it is sent. -/
inductive Stores (policy : Policy) (query : Query) : String → Value → BindType → Prop where
  /-- The value of a bound assignment is sent as text unless another type is given. -/
  | assigned {assignment : Assignment} (hmem : assignment ∈ query.assignments)
      (hbound : assignment.bound = true) :
    Stores policy query (":" ++ stem assignment.column) assignment.value
      (assignment.bindType.getD .text)
  /-- The value of a criterion that is no null test. -/
  | single {criterion : Criterion} {position : Nat} {value : Value}
      (hmem : (criterion, position) ∈ query.criteria.zipIdx 1)
      (hnull : criterion.comparison.getD policy.comparison ∉ [.isNull, .isNotNull])
      (hvalue : criterion.value = some value) (hscalar : value.isList = false) :
    Stores policy query (":" ++ stem criterion.column ++ toString position) value
      (criterion.bindType.getD value.bindType)
  /-- One of the items if that value is a list. -/
  | item {criterion : Criterion} {position index : Nat} {items : List Value} {value : Value}
      (hmem : (criterion, position) ∈ query.criteria.zipIdx 1)
      (hnull : criterion.comparison.getD policy.comparison ∉ [.isNull, .isNotNull])
      (hvalue : criterion.value = some (.list items)) (hitem : (value, index) ∈ items.zipIdx) :
    Stores policy query
      (":" ++ stem criterion.column ++ toString position ++ toString index) value
      (criterion.bindType.getD value.bindType)
  /-- The number of rows to skip, up to the largest number with a sign. -/
  | start {count : Int64} (hstart : query.page.start ≠ 0) (hlimit : query.page.limit ≠ 0)
      (hcount : count.toInt = min query.page.start.toNat (2 ^ 63 - 1)) :
    Stores policy query ":start" (.int count) .int
  /-- The number of rows to return, up to the same number. -/
  | limit {count : Int64} (hlimit : query.page.limit ≠ 0)
      (hcount : count.toInt = min query.page.limit.toNat (2 ^ 63 - 1)) :
    Stores policy query ":limit" (.int count) .int

variable {builder : Builder} {query : Query} {sql : String}

/-- The names that are emitted, part by part. -/
theorem names_emitted (builder : Builder) (query : Query) :
    (query.emitted builder).map Binding.name
      = Assignment.placeholders none query.assignments
        ++ ((clauseSlots builder.policy.policy query.criteria).map Binding.name
          ++ query.page.names) := by
  unfold emitted
  rw [List.map_append, List.map_append, Assignment.map_name_bindings, ← Page.bindings_eq_numbers,
    Page.map_name_bindings]

/-! ## The text -/

/-- The criteria of a statement that is built are accepted. -/
theorem compile_of_build (hbuilt : (query.build builder).result = .ok sql) :
    ∃ clause, Where.compile builder.policy.policy query.criteria = .ok clause := by
  cases query with
  | select criteria projection order page =>
    obtain ⟨_, clause, _, hclause, _⟩ := Builder.select_eq_ok_iff.mp hbuilt
    exact ⟨clause, hclause⟩
  | count criteria =>
    obtain ⟨_, clause, _, hclause, _⟩ := Builder.count_eq_ok_iff.mp hbuilt
    exact ⟨clause, hclause⟩
  | update criteria assignments page =>
    obtain ⟨_, _, clause, _, hclause, _⟩ := Builder.update_eq_ok_iff.mp hbuilt
    exact ⟨clause, hclause⟩
  | delete criteria page =>
    obtain ⟨_, clause, _, hclause, _⟩ := Builder.delete_eq_ok_iff.mp hbuilt
    exact ⟨clause, hclause⟩
  | insert assignments => exact ⟨Where.empty, Where.compile_nil _⟩

/-- A statement shows the names of what it emits. -/
theorem shows_sql (hbuilt : (query.build builder).result = .ok sql)
    (htexts : ∀ text ∈ query.texts builder, Silent text) :
    Shows sql ((query.emitted builder).map Binding.name) := by
  have houter : ∀ text ∈ query.outerTexts builder, Silent text :=
    fun text htext => htexts text (List.mem_append_left _ htext)
  have hinner : ∀ text ∈ clauseTexts builder.policy.policy query.criteria, Silent text :=
    fun text htext => htexts text (List.mem_append_right _ htext)
  have hend : Separates ";" := by decide
  rw [names_emitted]
  cases query with
  | select criteria projection order page =>
    obtain ⟨selection, clause, hselection, hclause, rfl⟩ := Builder.select_eq_ok_iff.mp hbuilt
    have hprojection : Silent projection.sql := Projection.silent_sql fun text htext =>
      houter text (List.mem_append_left _ (List.mem_append_right _ htext))
    have hsilent : Silent selection := Registry.silent_selectFrom hselection hprojection
      fun text htext => houter text (List.mem_append_left _ (List.mem_append_left _ htext))
    have horder : Trails (orderBy order) [] := trails_orderBy fun text htext =>
      houter text (List.mem_append_right _ (Option.mem_toList.mpr htext))
    have hshows := (((hsilent.append_shows (Where.trails_sql hclause hinner).shows).append
      horder).append page.trails_clause).close hend
    rwa [List.append_nil] at hshows
  | count criteria =>
    obtain ⟨selection, clause, hselection, hclause, rfl⟩ := Builder.count_eq_ok_iff.mp hbuilt
    have hcolumns : Silent "COUNT(*)" := by decide
    have hsilent : Silent selection := Registry.silent_selectFrom hselection hcolumns houter
    have hshows := (hsilent.append_shows (Where.trails_sql hclause hinner).shows).close hend
    show Shows _ (_ ++ [])
    rwa [List.append_nil]
  | update criteria assignments page =>
    obtain ⟨-, table, clause, htable, hclause, -, rfl⟩ := Builder.update_eq_ok_iff.mp hbuilt
    have hupdate : Silent "UPDATE " := by decide
    have hset : Silent " SET " := by decide
    have hname : Silent table.quotedName := Registry.silent_primary htable
      fun text htext => houter text (List.mem_append_left _ htext)
    have hsettings := Assignment.shows_settings fun assignment hassignment text htext =>
      houter text (List.mem_append_right _ (List.mem_flatMap.mpr ⟨assignment, hassignment, htext⟩))
    have hshows := ((((((hupdate.append hname).append hset).append_shows hsettings).append
      (Where.trails_sql hclause hinner)).append page.trails_clause).close hend)
    rwa [List.append_assoc] at hshows
  | delete criteria page =>
    obtain ⟨table, clause, htable, hclause, rfl⟩ := Builder.delete_eq_ok_iff.mp hbuilt
    have hdelete : Silent "DELETE FROM " := by decide
    have hname : Silent table.quotedName := Registry.silent_primary htable houter
    exact (((hdelete.append hname).append_shows (Where.trails_sql hclause hinner).shows).append
      page.trails_clause).close hend
  | insert assignments =>
    obtain ⟨-, -, table, htable, rfl⟩ := Builder.insert_eq_ok_iff.mp hbuilt
    have hinsert : Silent "INSERT INTO " := by decide
    have hvalues : Silent " VALUES " := by decide
    have hname : Silent table.quotedName := Registry.silent_primary htable
      fun text htext => houter text (List.mem_append_left _ htext)
    have hassignments : ∀ assignment ∈ assignments, ∀ text ∈ assignment.texts, Silent text :=
      fun assignment hassignment text htext => houter text
        (List.mem_append_right _ (List.mem_flatMap.mpr ⟨assignment, hassignment, htext⟩))
    have hcolumns := Assignment.silent_columnList hassignments
    have hshows := (((((hinsert.append hname).append separates_blank.1).append hcolumns).append
      hvalues).append_shows (Assignment.shows_tuple hassignments none)).close hend
    show Shows _ (_ ++ [])
    rwa [List.append_nil]

/-- **The tokens of a statement** are the names of what it emits. -/
theorem scan_eq (hbuilt : (query.build builder).result = .ok sql)
    (htexts : ∀ text ∈ query.texts builder, Silent text) :
    scan sql.toList = (query.emitted builder).map Binding.name :=
  (shows_sql hbuilt htexts).scan_eq

/-! ## The names -/

/-- Assignments of a statement that is built have claimed their names. -/
theorem claimed_of_build (hbuilt : (query.build builder).result = .ok sql) :
    (Assignment.placeholders none query.assignments).Nodup ∧
      ∀ name ∈ Assignment.placeholders none query.assignments,
        name ∉ (planned builder.policy.policy query.criteria).flatMap Plan.names
          ++ query.page.names := by
  cases query with
  | update criteria assignments page =>
    obtain ⟨-, _, _, -, hclause, hclaim, -⟩ := Builder.update_eq_ok_iff.mp hbuilt
    rw [Where.names_of_compile hclause] at hclaim
    exact Assignment.claim_eq_ok_iff.mp hclaim
  | insert assignments =>
    obtain ⟨-, hclaim, -⟩ := Builder.insert_eq_ok_iff.mp hbuilt
    exact Assignment.claim_eq_ok_iff.mp hclaim
  | _ => exact ⟨List.nodup_nil, fun name hname => (List.not_mem_nil hname).elim⟩

/-- No name is emitted twice. -/
theorem nodup_emitted (hbuilt : (query.build builder).result = .ok sql) :
    ((query.emitted builder).map Binding.name).Nodup := by
  obtain ⟨hassignments, hfresh⟩ := claimed_of_build hbuilt
  obtain ⟨clause, hclause⟩ := compile_of_build hbuilt
  have haccepted := (Where.accepted_of_compile hclause).1
  have hslots : ((clauseSlots builder.policy.policy query.criteria).map Binding.name).Perm
      ((planned builder.policy.policy query.criteria).flatMap Plan.names) := by
    have hperm := (perm_clauseSlots builder.policy.policy query.criteria).map Binding.name
    rwa [List.map_flatMap] at hperm
  rw [names_emitted]
  refine List.nodup_append.mpr ⟨hassignments, List.nodup_append.mpr ⟨?_, ?_, ?_⟩, ?_⟩
  · exact hslots.nodup_iff.mpr haccepted.nodup
  · exact query.page.nodup_names
  -- A name of a criterion ends in a digit, and a name of a page does not.
  · intro name hname other hother hsame
    obtain ⟨-, hdigit⟩ := planned_names (hslots.mem_iff.mp hname)
    exact Page.not_endsInDigit_of_mem_names hother (hsame ▸ hdigit)
  · intro name hname other hother hsame
    refine hfresh name hname (hsame ▸ ?_)
    rcases List.mem_append.mp hother with hother | hother
    · exact List.mem_append_left _ (hslots.mem_iff.mp hother)
    · exact List.mem_append_right _ hother

/-- What is bound is what is emitted, in another order. -/
theorem perm_calls (builder : Builder) (query : Query) :
    ((query.calls builder).map Call.binding).Perm (query.emitted builder) := by
  unfold calls emitted
  rw [Builder.map_binding_calls, Page.bindings_eq_numbers]
  have hslots := (perm_clauseSlots builder.policy.policy query.criteria).symm
  refine (hslots.append_right _).trans ?_
  rw [← List.append_assoc, ← List.append_assoc]
  exact List.perm_append_comm.append_right _

/-! ## What is stored -/

/-- A slot holds the value of a criterion that is no null test, or one of its items. -/
theorem mem_slots_iff {criterion : Criterion} {comparison : Comparison} {position : Nat}
    {slot : Binding} :
    slot ∈ criterion.slots comparison position ↔
      comparison ∉ [Comparison.isNull, .isNotNull] ∧
        ((∃ value, criterion.value = some value ∧ value.isList = false ∧
            slot = ⟨ofCriterion criterion.column position, value,
              criterion.bindType.getD value.bindType⟩) ∨
          ∃ items value index, criterion.value = some (.list items) ∧
            (value, index) ∈ items.zipIdx ∧
            slot = ⟨ofElement criterion.column position index, value,
              criterion.bindType.getD value.bindType⟩) := by
  have htakes : comparison.takesValue = true ↔ comparison ∉ [Comparison.isNull, .isNotNull] := by
    cases comparison <;> decide
  rw [← htakes]
  unfold Criterion.slots
  cases comparison.takesValue with
  | false => simp
  | true =>
    rw [if_pos rfl, and_iff_right rfl]
    cases criterion.value with
    | none => simp
    | some value =>
      cases value with
      | list items =>
        constructor
        · intro hslot
          obtain ⟨⟨value, index⟩, hitem, rfl⟩ := List.mem_map.mp hslot
          exact Or.inr ⟨items, value, index, rfl, hitem, rfl⟩
        · intro hslot
          rcases hslot with ⟨_, hvalue, hscalar, -⟩ | ⟨_, value, index, hvalue, hitem, rfl⟩
          · cases hvalue
            cases hscalar
          · cases hvalue
            exact List.mem_map.mpr ⟨(value, index), hitem, rfl⟩
      | _ => simp [Value.isList]

/-- The slots of a clause are those of its criteria, each at its position. -/
theorem mem_clauseSlots_iff {policy : Policy} {criteria : List Criterion} {slot : Binding} :
    slot ∈ clauseSlots policy criteria ↔
      ∃ criterion position, (criterion, position) ∈ criteria.zipIdx 1 ∧
        slot ∈ criterion.slots (criterion.comparison.getD policy.comparison) position := by
  rw [(perm_clauseSlots policy criteria).mem_iff, planned, plannedFrom_eq_map_zipIdx,
    List.flatMap_map, List.mem_flatMap]
  exact Prod.exists

/-- **What is emitted is what is stored.** -/
theorem mem_emitted_iff {name : String} {value : Value} {kind : BindType} :
    (⟨name, value, kind⟩ : Binding) ∈ query.emitted builder ↔
      query.Stores builder.policy.policy name value kind := by
  unfold emitted
  rw [List.mem_append, List.mem_append, mem_clauseSlots_iff, Page.mem_numbers_iff]
  constructor
  · intro hmem
    rcases hmem with hassigned | hslot | hnumber
    · obtain ⟨assignment, hassignment, hbinding⟩ := List.mem_map.mp hassigned
      obtain ⟨hmem, hbound⟩ := List.mem_filter.mp hassignment
      cases hbinding
      exact .assigned hmem hbound
    · obtain ⟨criterion, position, hmem, hslot⟩ := hslot
      obtain ⟨hnull, hheld⟩ := mem_slots_iff.mp hslot
      rcases hheld with ⟨value, hvalue, hscalar, hsame⟩ | ⟨items, value, index, hvalue, hitem, hsame⟩
      · cases hsame
        exact .single hmem hnull hvalue hscalar
      · cases hsame
        exact .item hmem hnull hvalue hitem
    · rcases hnumber with ⟨hstart, hlimit, count, hcount, hsame⟩ | ⟨hlimit, count, hcount, hsame⟩
      · cases hsame
        exact .start hstart hlimit hcount
      · cases hsame
        exact .limit hlimit hcount
  · intro hstores
    cases hstores with
    | assigned hmem hbound =>
      exact Or.inl (List.mem_map.mpr ⟨_, List.mem_filter.mpr ⟨hmem, hbound⟩, rfl⟩)
    | single hmem hnull hvalue hscalar =>
      exact Or.inr (Or.inl ⟨_, _, hmem,
        mem_slots_iff.mpr ⟨hnull, Or.inl ⟨_, hvalue, hscalar, rfl⟩⟩⟩)
    | item hmem hnull hvalue hitem =>
      exact Or.inr (Or.inl ⟨_, _, hmem,
        mem_slots_iff.mpr ⟨hnull, Or.inr ⟨_, _, _, hvalue, hitem, rfl⟩⟩⟩)
    | start hstart hlimit hcount =>
      exact Or.inr (Or.inr (Or.inl ⟨hstart, hlimit, _, hcount, rfl⟩))
    | limit hlimit hcount => exact Or.inr (Or.inr (Or.inr ⟨hlimit, _, hcount, rfl⟩))

end Query

/-! ## The agreement -/

/-- **Text and bindings agree.** Of a statement that is built, and into which no colon was
written by the caller, the values are bound by the same calls for every prepared
statement. A reader of the text finds each name once, and these are the names of what is
bound. A recorder takes all of it and has under each name the value and the kind of what
the text has there: that of an assignment or of a criterion, or a number of the page, and
nothing under any other name. -/
theorem Query.text_and_bindings_agree {builder : Builder} {query : Query} {sql : String}
    (hbuilt : (query.build builder).result = .ok sql)
    (htexts : ∀ text ∈ query.texts builder, Silent text) :
    (∀ (σ : Type) [Prepared σ] (statement : σ),
        query.bind builder statement = deliver builder.debug (query.calls builder) statement) ∧
      ((query.calls builder).map Call.binding).Perm (query.emitted builder) ∧
      ((query.calls builder).map (·.binding.name)).Nodup ∧
      scan sql.toList = (query.emitted builder).map Binding.name ∧
      (scan sql.toList).Nodup ∧
      (query.bind builder ({} : Recorder)).trace.result = .ok () ∧
      ((query.bind builder ({} : Recorder)).statement.names).Perm (scan sql.toList) ∧
      (∀ binding ∈ query.emitted builder,
        (query.bind builder ({} : Recorder)).statement.get? binding.name
          = some ⟨binding.value, binding.kind⟩) ∧
      ∀ (name : String) (value : Value) (kind : BindType),
        (query.bind builder ({} : Recorder)).statement.get? name = some ⟨value, kind⟩ ↔
          query.Stores builder.policy.policy name value kind := by
  obtain ⟨clause, hclause⟩ := compile_of_build hbuilt
  have hbind : ∀ (σ : Type) [Prepared σ] (statement : σ),
      query.bind builder statement = deliver builder.debug (query.calls builder) statement := by
    intro σ _ statement
    exact Builder.bindValues_eq (Where.accepted_of_compile hclause).1 _ _ statement
  have hperm := perm_calls builder query
  have hscan := scan_eq hbuilt htexts
  have hemitted := nodup_emitted hbuilt
  have hcalls : (((query.calls builder).map Call.binding).map Binding.name).Nodup :=
    (hperm.map Binding.name).nodup_iff.mpr hemitted
  obtain ⟨hresult, hstatement⟩ := Recorder.deliver_eq builder.debug (query.calls builder) {}
  have hfound : ∀ (name : String) (value : Value) (kind : BindType),
      (query.bind builder ({} : Recorder)).statement.get? name = some ⟨value, kind⟩ ↔
        (⟨name, value, kind⟩ : Binding) ∈ query.emitted builder := by
    intro name value kind
    rw [hbind, hstatement, Recorder.get?_eq_some_iff_mem hcalls, hperm.mem_iff]
  refine ⟨hbind, hperm, ?_, hscan, ?_, ?_, ?_, fun binding => (hfound _ _ _).mpr, ?_⟩
  · rw [List.map_map] at hcalls
    exact hcalls
  · rw [hscan]
    exact hemitted
  · rw [hbind]
    exact hresult
  · rw [hbind, hstatement, Recorder.names_foldl_record _ {} hcalls, hscan]
    exact hperm.map Binding.name
  · intro name value kind
    exact (hfound name value kind).trans mem_emitted_iff

/-- An update of two columns, one of which is bound, under criteria in two groups. More rows
are skipped than a number with a sign can say. -/
def touch : Query :=
  .update interleaved
    [{ column := "rank", value := .int 5 }, Assignment.raw "seen" "NOW()"]
    { start := 9223372036854775809, limit := 10 }

theorem Query.text_and_bindings_agree_touch :
    let builder : Builder := { registry := .single "users" }
    let sql := "UPDATE `users` SET rank = :rank, seen = NOW() WHERE (a = :a1 OR d IS NULL) "
      ++ "OR b = :b2 AND NOT (c IN (:c30,:c31)) LIMIT :start, :limit;"
    let recorder := (touch.bind builder ({} : Recorder)).statement
    (touch.build builder).result = .ok sql ∧
      scan sql.toList = [":rank", ":a1", ":b2", ":c30", ":c31", ":start", ":limit"] ∧
      (recorder.names).Perm (scan sql.toList) ∧
      (∀ binding ∈ touch.emitted builder,
        recorder.get? binding.name = some ⟨binding.value, binding.kind⟩) ∧
      recorder.get? ":rank" = some ⟨.int 5, .text⟩ ∧
      recorder.get? ":a1" = some ⟨.int 1, .int⟩ ∧
      recorder.get? ":c31" = some ⟨.int 4, .int⟩ ∧
      recorder.get? ":start" = some ⟨.int 9223372036854775807, .int⟩ ∧
      recorder.get? ":limit" = some ⟨.int 10, .int⟩ := by
  have hbuilt : (touch.build { registry := .single "users" }).result = .ok
      ("UPDATE `users` SET rank = :rank, seen = NOW() WHERE (a = :a1 OR d IS NULL) "
        ++ "OR b = :b2 AND NOT (c IN (:c30,:c31)) LIMIT :start, :limit;") := by
    decide +kernel
  have htexts : ∀ text ∈ touch.texts { registry := .single "users" }, Silent text := by
    decide +kernel
  obtain ⟨-, -, -, hscan, -, -, hnames, hfound, hstored⟩ := text_and_bindings_agree hbuilt htexts
  have hrank : ({ column := "rank", value := .int 5 } : Assignment) ∈ touch.assignments := .head _
  have hfirst : (interleaved[0], 1) ∈ touch.criteria.zipIdx 1 := .head _
  have hthird : (interleaved[2], 3) ∈ touch.criteria.zipIdx 1 := .tail _ (.tail _ (.head _))
  have hsecondItem : (.int 4, 1) ∈ [Value.int 3, .int 4].zipIdx := .tail _ (.head _)
  refine ⟨hbuilt, hscan, hnames, hfound, (hstored _ _ _).mpr ?_, (hstored _ _ _).mpr ?_,
    (hstored _ _ _).mpr ?_, (hstored _ _ _).mpr ?_, (hstored _ _ _).mpr ?_⟩
  · exact .assigned hrank rfl
  · exact .single hfirst (by decide) rfl rfl
  · exact .item hthird (by decide) rfl hsecondItem
  · exact .start (by decide) (by decide) (by decide)
  · exact .limit (by decide) (by decide)

end BoundSql
