import BoundSql.Builder.Basic
import BoundSql.Proofs.Decoding
import BoundSql.Proofs.Planning

/-!
# Statements that are built

A statement is built exactly when each of its parts is accepted, and its text
is then that of its parts. The events that are reported on the way have no
part in this, so only the results of the traces are looked at here.
-/

namespace BoundSql

namespace Where

/-- What compiles is accepted, and nothing is accepted that is not bound. -/
theorem accepted_of_compile {policy : Policy} {criteria : List Criterion} {clause : Where}
    (h : compile policy criteria = .ok clause) :
    Accepted policy criteria ∧ clause.bindings = (planned policy criteria).flatMap Plan.slots := by
  by_cases hne : criteria = []
  · subst hne
    rw [compile_nil] at h
    cases h
    exact ⟨⟨fun _ hmem => (List.not_mem_nil hmem).elim, List.nodup_nil⟩, rfl⟩
  · obtain ⟨haccepted, rfl⟩ := (compile_eq_ok_iff hne).mp h
    exact ⟨haccepted, rfl⟩

/-- The names of a clause are those of its plans. -/
theorem names_of_compile {policy : Policy} {criteria : List Criterion} {clause : Where}
    (h : compile policy criteria = .ok clause) :
    clause.names = (planned policy criteria).flatMap Plan.names := by
  unfold names
  rw [(accepted_of_compile h).2, List.map_flatMap]
  rfl

end Where

namespace Assignment

/-- Names are claimed when they are new and differ from each other. -/
theorem claim_eq_ok_iff {operation : String} {taken names : List String} :
    claim operation taken names = .ok () ↔ names.Nodup ∧ ∀ name ∈ names, name ∉ taken := by
  rw [← firstTaken?_eq_none_iff]
  unfold claim
  cases firstTaken? taken names with
  | none => exact ⟨fun _ => rfl, fun _ => rfl⟩
  | some name =>
    constructor
    · intro h
      cases h
    · intro h
      cases h

/-- Names that cannot be claimed are refused for a collision. -/
theorem code_of_claim {operation : String} {taken names : List String} {fault : Fault}
    (h : claim operation taken names = .error fault) : fault.code = .placeholderCollision := by
  unfold claim at h
  split at h
  · cases h
    rfl
  · cases h

/-- All rows of a batch have the columns of the first. -/
def SameColumns (rows : List (List Assignment)) : Prop :=
  ∀ row ∈ rows, columns row = columns (rows.headD [])

instance (rows : List (List Assignment)) : Decidable (SameColumns rows) :=
  List.decidableBAll _ _

/-- Rows pass the check of their columns if all have those of the first. -/
theorem checkColumns_eq_ok_iff {rows : List (List Assignment)} :
    checkColumns rows = .ok () ↔ SameColumns rows := by
  cases rows with
  | nil => exact ⟨fun _ row hrow => (List.not_mem_nil hrow).elim, fun _ => rfl⟩
  | cons first rest =>
    unfold checkColumns SameColumns
    dsimp only [List.headD_cons]
    constructor
    · intro h row hrow
      split at h
      · cases h
      · next hnone =>
        -- The check looks at rows with their numbers; for us any number of the row will do.
        obtain ⟨index, hindex, hget⟩ := List.mem_iff_getElem.mp hrow
        have hmem : (row, index) ∈ (first :: rest).zipIdx :=
          List.mem_zipIdx_iff_getElem?.mpr (hget ▸ List.getElem?_eq_getElem hindex)
        simpa using List.find?_eq_none.mp hnone _ hmem
    · intro h
      split
      · next row index hfound =>
        have hsame := h row (List.fst_mem_of_mem_zipIdx (List.mem_of_find?_eq_some hfound))
        have hother := List.find?_some hfound
        exact absurd hsame (by simpa using hother)
      · rfl

/-- Rows with the columns of the first are as long as it. -/
theorem SameColumns.length_eq {rows : List (List Assignment)} (h : SameColumns rows)
    {row : List Assignment} (hrow : row ∈ rows) : row.length = (rows.headD []).length := by
  have hlength := congrArg List.length (h row hrow)
  rwa [columns, columns, List.length_map, List.length_map] at hlength

/-- If the first row has columns, so has every other. -/
theorem SameColumns.ne_nil {rows : List (List Assignment)} (h : SameColumns rows)
    (hfirst : rows.headD [] ≠ []) {row : List Assignment} (hrow : row ∈ rows) : row ≠ [] := by
  rw [← List.length_pos_iff, h.length_eq hrow, List.length_pos_iff]
  exact hfirst

end Assignment

namespace Builder

variable {builder : Builder} {criteria : List Criterion} {assignments : List Assignment}
  {page : Page} {sql : String}

/-- The clause of a builder is what its policy compiles. -/
theorem result_clause (builder : Builder) (criteria : List Criterion) :
    (builder.clause criteria).result = Where.compile builder.policy.policy criteria :=
  Where.result_compileTraced _ _ _

theorem result_built (sql : String) (kind : Built) : (built sql kind).result = .ok sql := rfl

/-- A statement made of one part and a clause is built when both are accepted. -/
theorem part_clause_eq_ok_iff {α : Type} (part : Except Fault α) (text : α → Where → String)
    (kind : α → Where → Built) :
    (do
        let value ← Trace.ofExcept part
        let clause ← builder.clause criteria
        built (text value clause) (kind value clause)).result = .ok sql ↔
      ∃ value clause, part = .ok value ∧
        Where.compile builder.policy.policy criteria = .ok clause ∧ text value clause = sql := by
  simp only [Trace.result_bind, Trace.result_ofExcept, result_clause, result_built, bind_eq_ok_iff,
    Except.ok.injEq]
  constructor
  · intro h
    obtain ⟨value, hvalue, clause, hclause, hsql⟩ := h
    exact ⟨value, clause, hvalue, hclause, hsql⟩
  · intro h
    obtain ⟨value, clause, hvalue, hclause, hsql⟩ := h
    exact ⟨value, hvalue, clause, hclause, hsql⟩

/-- A selection is built of the tables, the clause, the order and the page. -/
theorem select_eq_ok_iff {projection : Projection} {order : Option String} :
    (builder.select criteria projection order page).result = .ok sql ↔
      ∃ selection clause, builder.registry.selectFrom projection.sql = .ok selection ∧
        Where.compile builder.policy.policy criteria = .ok clause ∧
        selection ++ clause.sql ++ orderBy order ++ page.clause ++ ";" = sql := by
  unfold select
  exact part_clause_eq_ok_iff _ _ _

/-- A count is built of the tables and the clause. -/
theorem count_eq_ok_iff :
    (builder.count criteria).result = .ok sql ↔
      ∃ selection clause, builder.registry.selectFrom "COUNT(*)" = .ok selection ∧
        Where.compile builder.policy.policy criteria = .ok clause ∧
        selection ++ clause.sql ++ ";" = sql := by
  unfold count
  exact part_clause_eq_ok_iff _ _ _

/-- A deletion is built of the primary table, the clause and the page. -/
theorem delete_eq_ok_iff :
    (builder.delete criteria page).result = .ok sql ↔
      ∃ table clause, builder.registry.primary = .ok table ∧
        Where.compile builder.policy.policy criteria = .ok clause ∧
        "DELETE FROM " ++ table.quotedName ++ clause.sql ++ page.clause ++ ";" = sql := by
  unfold delete
  exact part_clause_eq_ok_iff _ _ _

/-- An update is built of the primary table, the assignments, the clause and the page, if no name
of an assignment is taken. -/
theorem update_eq_ok_iff :
    (builder.update criteria assignments page).result = .ok sql ↔
      assignments ≠ [] ∧ ∃ table clause, builder.registry.primary = .ok table ∧
        Where.compile builder.policy.policy criteria = .ok clause ∧
        Assignment.claim "updateQuery" (clause.names ++ page.names)
          (Assignment.placeholders none assignments) = .ok () ∧
        "UPDATE " ++ table.quotedName ++ " SET " ++ Assignment.settings assignments
          ++ clause.sql ++ page.clause ++ ";" = sql := by
  unfold update
  cases assignments with
  | nil =>
    constructor
    · intro h
      cases h
    · intro hparts
      obtain ⟨hne, -⟩ := hparts
      exact absurd rfl hne
  | cons first rest =>
    simp only [List.isEmpty_cons, Bool.false_eq_true, if_false, Trace.result_bind,
      Trace.result_ofExcept, result_clause, result_built, bind_eq_ok_iff, Except.ok.injEq]
    constructor
    · intro hparts
      obtain ⟨table, htable, clause, hclause, _, hclaim, hsql⟩ := hparts
      exact ⟨List.cons_ne_nil _ _, table, clause, htable, hclause, hclaim, hsql⟩
    · intro hparts
      obtain ⟨-, table, clause, htable, hclause, hclaim, hsql⟩ := hparts
      exact ⟨table, htable, clause, hclause, (), hclaim, hsql⟩

/-- An insertion is built of the primary table and the assignments, if their names differ. -/
theorem insert_eq_ok_iff :
    (builder.insert assignments).result = .ok sql ↔
      assignments ≠ [] ∧
        Assignment.claim "insertQuery" [] (Assignment.placeholders none assignments) = .ok () ∧
        ∃ table, builder.registry.primary = .ok table ∧
          "INSERT INTO " ++ table.quotedName ++ " " ++ Assignment.columnList assignments
            ++ " VALUES " ++ Assignment.tuple none assignments ++ ";" = sql := by
  unfold insert
  cases assignments with
  | nil =>
    constructor
    · intro h
      cases h
    · intro hparts
      obtain ⟨hne, -⟩ := hparts
      exact absurd rfl hne
  | cons first rest =>
    simp only [List.isEmpty_cons, Bool.false_eq_true, if_false, Trace.result_bind,
      Trace.result_ofExcept, result_built, bind_eq_ok_iff, Except.ok.injEq]
    constructor
    · intro hparts
      obtain ⟨_, hclaim, table, htable, hsql⟩ := hparts
      exact ⟨List.cons_ne_nil _ _, hclaim, table, htable, hsql⟩
    · intro hparts
      obtain ⟨-, hclaim, table, htable, hsql⟩ := hparts
      exact ⟨(), hclaim, table, htable, hsql⟩

variable {rows : List (List Assignment)}

/-- Rows pass all checks if they have the same columns and placeholders that differ. -/
theorem checkRows_eq_ok_iff {operation : String} :
    checkRows operation rows = .ok () ↔
      Assignment.SameColumns rows ∧ (Assignment.rowPlaceholders rows).Nodup := by
  -- Columns come first: a batch that is wrong in both ways is refused for its columns.
  have hbind : checkRows operation rows = (Assignment.checkColumns rows).bind fun _ =>
      Assignment.claim operation [] (Assignment.rowPlaceholders rows) := rfl
  rw [hbind, bind_eq_ok_iff]
  constructor
  · intro hparts
    obtain ⟨_, hcolumns, hclaim⟩ := hparts
    exact ⟨Assignment.checkColumns_eq_ok_iff.mp hcolumns,
      (Assignment.claim_eq_ok_iff.mp hclaim).1⟩
  · intro hparts
    obtain ⟨hcolumns, hnodup⟩ := hparts
    exact ⟨(), Assignment.checkColumns_eq_ok_iff.mpr hcolumns,
      Assignment.claim_eq_ok_iff.mpr ⟨hnodup, fun _ _ => List.not_mem_nil⟩⟩

/-- A batch is built of the primary table and the rows, if these pass their checks. -/
theorem insertRows_eq_ok_iff :
    (builder.insertRows rows).result = .ok sql ↔
      rows.headD [] ≠ [] ∧ checkRows "batchInsertQuery" rows = .ok () ∧
        ∃ table, builder.registry.primary = .ok table ∧
          "INSERT INTO " ++ table.quotedName ++ " " ++ Assignment.columnList (rows.headD [])
            ++ " VALUES " ++ Assignment.tuples rows ++ ";" = sql := by
  unfold insertRows
  dsimp only
  cases rows.headD [] with
  | nil =>
    constructor
    · intro h
      cases h
    · intro hparts
      obtain ⟨hne, -⟩ := hparts
      exact absurd rfl hne
  | cons first rest =>
    simp only [List.isEmpty_cons, Bool.false_eq_true, if_false, Trace.result_bind,
      Trace.result_ofExcept, result_built, bind_eq_ok_iff, Except.ok.injEq]
    constructor
    · intro hparts
      obtain ⟨_, hcheck, table, htable, hsql⟩ := hparts
      exact ⟨List.cons_ne_nil _ _, hcheck, table, htable, hsql⟩
    · intro hparts
      obtain ⟨-, hcheck, table, htable, hsql⟩ := hparts
      exact ⟨(), hcheck, table, htable, hsql⟩

end Builder

end BoundSql
