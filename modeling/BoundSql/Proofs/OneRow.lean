import BoundSql.Proofs.Collision
import BoundSql.Proofs.Insertions

/-!
# A batch of one row

To insert a batch of one row is to insert the row, but for the number of the row
that a placeholder carries in a batch:

> `Builder.batch_of_one`: a batch of one row is refused exactly when the row alone
> is, and under the same code. Where they are built, the one text is the other with
> a 0 written behind each placeholder, and what is bound differs in the same way.

A text does not tell its placeholders from what a caller wrote in it, so a statement
is laid out in `Stretch`es first, of which some are placeholders.
-/

namespace BoundSql

open Placeholder

/-- Whether something was worked out, or the code under which it was refused. -/
def Trace.outcome {α : Type} (trace : Trace α) : Except Code Unit :=
  (trace.result.map fun _ => ()).mapError Fault.code

/-- A binding under the name that it has in the first row of a batch. -/
def Binding.inFirstRow (binding : Binding) : Binding :=
  { binding with name := binding.name ++ "0" }

/-! ## What a recorder keeps -/

namespace Recorder

/-- A binding under a new name comes last. -/
theorem bindings_record {recorder : Recorder} {binding : Binding}
    (h : binding.name ∉ recorder.names) :
    (recorder.record binding).bindings = recorder.bindings ++ [binding] := by
  show (insertEntry _ _ recorder.bound.entries).map _ = _
  rw [KeyedList.insertEntry_of_not_mem h, List.map_append]
  rfl

/-- Bindings under new and distinct names are kept as they came. -/
theorem bindings_foldl_record : ∀ (bindings : List Binding) (recorder : Recorder),
    (recorder.names ++ bindings.map Binding.name).Nodup →
      (bindings.foldl record recorder).bindings = recorder.bindings ++ bindings := by
  intro bindings
  induction bindings with
  | nil => intro recorder _; exact (List.append_nil _).symm
  | cons binding rest ih =>
    intro recorder hnodup
    have hnew : binding.name ∉ recorder.names := by
      intro hmem
      exact (List.nodup_append.mp hnodup).2.2 _ hmem _ List.mem_cons_self rfl
    have hnames : (recorder.record binding).names = recorder.names ++ [binding.name] := by
      rw [names_record, if_neg hnew]
    -- The names that are taken move from the row into the recorder, one with each step.
    rw [List.map_cons, List.append_cons, ← hnames] at hnodup
    rw [List.foldl_cons, ih _ hnodup, bindings_record hnew, ← List.append_cons]

/-- Bindings under distinct names are all taken by a recorder, and kept as they were heard. -/
theorem keeps (debug : Bool) (origin : Origin) {bindings : List Binding}
    (h : (bindings.map Binding.name).Nodup) :
    let delivery := deliver debug (bindings.map (Call.mk origin)) (Overheard.of ({} : Recorder))
    delivery.trace.result = .ok () ∧ delivery.statement.heard = bindings ∧
      delivery.statement.statement.bindings = bindings := by
  intro delivery
  have hunheard : delivery.unheard = deliver debug (bindings.map (Call.mk origin)) {} :=
    unheard_deliver debug _ ({} : Recorder) []
  obtain ⟨hresult, hstatement⟩ := deliver_eq debug (bindings.map (Call.mk origin)) {}
  obtain ⟨made, hheard, hmakes⟩ :=
    deliver_makes debug (bindings.map (Call.mk origin)) ({} : Recorder) []
  rw [Call.map_binding_map] at hstatement hmakes
  rw [hresult] at hmakes
  refine ⟨(congrArg (·.trace.result) hunheard).trans hresult, ?_, ?_⟩
  -- A recorder refuses nothing, so the row was heard to its end.
  · cases hmakes with
    | all _ => exact hheard
  · have hkept : delivery.statement.statement = bindings.foldl record {} :=
      (congrArg Delivery.statement hunheard).trans hstatement
    exact (congrArg Recorder.bindings hkept).trans (bindings_foldl_record bindings {} h)

end Recorder

/-! ## Stretches of a statement -/

/-- A part of a statement: text that stands there as it is, or a placeholder. -/
inductive Stretch where
  | fixed (text : String)
  | name (placeholder : String)

namespace Stretch

/-- The text of a part. -/
def text : Stretch → String
  | fixed text => text
  | name placeholder => placeholder

/-- The placeholder that a part is. -/
def name? : Stretch → Option String
  | fixed _ => none
  | name placeholder => some placeholder

/-- The same part in the first row of a batch. -/
def inFirstRow : Stretch → Stretch
  | fixed text => fixed text
  | name placeholder => name (placeholder ++ "0")

/-- The text of parts that follow each other. -/
def join (stretches : List Stretch) : String :=
  String.join (stretches.map text)

/-- Parts with a fixed text between them. -/
theorem join_intersperse (separator : String) (stretches : List Stretch) :
    join (stretches.intersperse (fixed separator))
      = separator.intercalate (stretches.map text) := by
  induction stretches with
  | nil => rfl
  | cons first rest ih =>
    cases rest with
    | nil =>
      rw [List.map_singleton, String.intercalate_singleton]
      exact String.empty_append
    | cons second rest =>
      rw [List.intersperse_cons_cons, List.map_cons, List.map_cons, String.intercalate_cons_cons,
        ← List.map_cons, ← ih]
      unfold join
      rw [List.map_cons, List.map_cons, String.join_cons, String.join_cons, String.append_assoc]
      rfl

/-- What stands between the parts is the same in a batch. -/
theorem map_inFirstRow_intersperse (separator : String) (stretches : List Stretch) :
    (stretches.intersperse (fixed separator)).map inFirstRow
      = (stretches.map inFirstRow).intersperse (fixed separator) := by
  induction stretches with
  | nil => rfl
  | cons first rest ih =>
    cases rest with
    | nil => rfl
    | cons second rest =>
      rw [List.intersperse_cons_cons, List.map_cons, List.map_cons, ih]
      rfl

/-- What stands between the parts is no placeholder. -/
theorem filterMap_name?_intersperse (separator : String) (stretches : List Stretch) :
    (stretches.intersperse (fixed separator)).filterMap name? = stretches.filterMap name? := by
  induction stretches with
  | nil => rfl
  | cons first rest ih =>
    cases rest with
    | nil => rfl
    | cons second rest =>
      have hbetween : (fixed separator :: (second :: rest).intersperse (fixed separator)).filterMap
          name? = (second :: rest).filterMap name? := ih
      rw [List.intersperse_cons_cons, List.filterMap_cons, hbetween]
      exact List.filterMap_cons.symm

end Stretch

/-! ## One row in a batch -/

namespace Assignment

/-- The placeholder of an assignment, or the literal of its value. -/
def stretch (assignment : Assignment) : Stretch :=
  if assignment.bound then .name (ofAssignment assignment.column none)
  else .fixed assignment.value.literal

/-- The insertion of a row into a table, laid out in its parts. -/
def layout (table : Table) (assignments : List Assignment) : List Stretch :=
  [.fixed ("INSERT INTO " ++ table.quotedName ++ " " ++ columnList assignments ++ " VALUES (")]
    ++ (assignments.map stretch).intersperse (.fixed ",") ++ [.fixed ");"]

theorem text_stretch (assignment : Assignment) :
    assignment.stretch.text = assignment.cell none := by
  unfold stretch cell
  split <;> rfl

theorem text_inFirstRow_stretch (assignment : Assignment) :
    assignment.stretch.inFirstRow.text = assignment.cell (some 0) := by
  unfold stretch cell
  split <;> rfl

/-- The placeholders of a layout are those of the row. -/
theorem filterMap_name?_layout (table : Table) (assignments : List Assignment) :
    (layout table assignments).filterMap Stretch.name? = placeholders none assignments := by
  have hcells : (assignments.map stretch).filterMap Stretch.name?
      = placeholders none assignments := by
    unfold placeholders
    rw [List.filterMap_map, ← List.filterMap_eq_map, List.filterMap_filter]
    refine List.filterMap_congr fun assignment _ => ?_
    show assignment.stretch.name? = _
    unfold stretch
    split <;> rfl
  unfold layout
  rw [List.filterMap_append, List.filterMap_append, Stretch.filterMap_name?_intersperse, hcells]
  exact List.append_nil _

/-- Cells in a frame make the text of an insertion. -/
theorem join_frame (before : String) (cells : List Stretch) :
    Stretch.join
        ([.fixed (before ++ " VALUES (")] ++ cells.intersperse (.fixed ",") ++ [.fixed ");"])
      = before ++ " VALUES " ++ ("(" ++ ",".intercalate (cells.map Stretch.text) ++ ")")
        ++ ";" := by
  rw [← Stretch.join_intersperse]
  unfold Stretch.join
  rw [List.map_append, List.map_append, String.join_append, String.join_append]
  -- What is left is one text with its parts bracketed in another way.
  apply String.toList_inj.mp
  simp [Stretch.text]

/-- The layout of a row is the text that inserts it. -/
theorem join_layout (table : Table) (assignments : List Assignment) :
    Stretch.join (layout table assignments)
      = "INSERT INTO " ++ table.quotedName ++ " " ++ columnList assignments
        ++ " VALUES " ++ tuple none assignments ++ ";" := by
  have hcells : (assignments.map stretch).map Stretch.text = assignments.map (cell none) := by
    rw [List.map_map]
    exact List.map_congr_left fun assignment _ => text_stretch assignment
  rw [layout, join_frame, hcells, tuple]

/-- Numbered for the first row of a batch, it is the text that inserts that batch. -/
theorem join_layout_inFirstRow (table : Table) (assignments : List Assignment) :
    Stretch.join ((layout table assignments).map Stretch.inFirstRow)
      = "INSERT INTO " ++ table.quotedName ++ " " ++ columnList assignments
        ++ " VALUES " ++ tuples [assignments] ++ ";" := by
  have hcells : ((assignments.map stretch).map Stretch.inFirstRow).map Stretch.text
      = assignments.map (cell (some 0)) := by
    rw [List.map_map, List.map_map]
    exact List.map_congr_left fun assignment _ => text_inFirstRow_stretch assignment
  have htuples : tuples [assignments] = tuple (some 0) assignments := String.intercalate_singleton
  rw [htuples, tuple, ← hcells, ← join_frame, layout, List.map_append, List.map_append,
    Stretch.map_inFirstRow_intersperse]
  rfl

/-- The names of a row are those that it has alone, with a 0 behind each. -/
theorem rowPlaceholders_singleton (assignments : List Assignment) :
    rowPlaceholders [assignments] = (placeholders none assignments).map (· ++ "0") := by
  have hrow : rowPlaceholders [assignments] = placeholders (some 0) assignments :=
    List.append_nil _
  rw [hrow]
  unfold placeholders
  rw [List.map_map]
  rfl

/-- The bindings of a row are those that it has alone, under the names of a batch. -/
theorem rowBindings_singleton (assignments : List Assignment) :
    rowBindings [assignments] = (bindings none assignments).map Binding.inFirstRow := by
  have hrow : rowBindings [assignments] = bindings (some 0) assignments := List.append_nil _
  rw [hrow]
  unfold bindings
  rw [List.map_map]
  rfl

/-- One row goes together with itself. -/
theorem sameColumns_singleton (assignments : List Assignment) : SameColumns [assignments] :=
  List.forall_mem_singleton.mpr rfl

/-- What is written behind every name keeps them apart, and makes none of them so. -/
theorem nodup_rowPlaceholders_singleton_iff (assignments : List Assignment) :
    (rowPlaceholders [assignments]).Nodup ↔ (placeholders none assignments).Nodup := by
  rw [rowPlaceholders_singleton]
  exact List.nodup_map_iff fun first second h => (String.append_left_inj "0").mp h

/-- Names are claimed in a batch of one row exactly when they are claimed alone, and both
are refused under the same code. -/
theorem claim_first_cases (operation other : String) (assignments : List Assignment) :
    claim operation [] (placeholders none assignments) = .ok () ∧
        claim other [] (rowPlaceholders [assignments]) = .ok () ∨
      ∃ first second, claim operation [] (placeholders none assignments) = .error first ∧
        claim other [] (rowPlaceholders [assignments]) = .error second ∧
        first.code = second.code := by
  cases hsingle : claim operation [] (placeholders none assignments) with
  | ok _ =>
    obtain ⟨hnodup, -⟩ := claim_eq_ok_iff.mp hsingle
    have hbatch := (nodup_rowPlaceholders_singleton_iff assignments).mpr hnodup
    exact .inl ⟨rfl, claim_eq_ok_iff.mpr ⟨hbatch, fun _ _ => List.not_mem_nil⟩⟩
  | error first =>
    cases hbatch : claim other [] (rowPlaceholders [assignments]) with
    | ok _ =>
      -- The batch cannot be taken where the single row is refused: their names repeat together.
      obtain ⟨hnodup, -⟩ := claim_eq_ok_iff.mp hbatch
      have hnames := (nodup_rowPlaceholders_singleton_iff assignments).mp hnodup
      rw [claim_eq_ok_iff.mpr ⟨hnames, fun _ _ => List.not_mem_nil⟩] at hsingle
      cases hsingle
    | error second =>
      have hcode := (code_of_claim hsingle).trans (code_of_claim hbatch).symm
      exact .inr ⟨first, second, rfl, rfl, hcode⟩

end Assignment

namespace Builder

variable {builder : Builder} {assignments : List Assignment}

/-- The insertion of a row, as its layout. -/
theorem result_insert_eq (hne : assignments ≠ []) :
    (builder.insert assignments).result
      = (Assignment.claim "insertQuery" [] (Assignment.placeholders none assignments)).bind
        fun _ => builder.registry.primary.map fun table =>
          Stretch.join (Assignment.layout table assignments) := by
  have hsome : assignments.isEmpty = false := List.isEmpty_eq_false_iff.mpr hne
  unfold insert
  simp only [hsome, Bool.false_eq_true, if_false, Trace.result_bind, Trace.result_ofExcept,
    result_built, Assignment.join_layout]
  rfl

/-- A batch of one row, as the same layout in the first row. -/
theorem result_insertRows_eq (hne : assignments ≠ []) :
    (builder.insertRows [assignments]).result
      = (Assignment.claim "batchInsertQuery" [] (Assignment.rowPlaceholders [assignments])).bind
        fun _ => builder.registry.primary.map fun table =>
          Stretch.join ((Assignment.layout table assignments).map Stretch.inFirstRow) := by
  have hsome : ([assignments].headD []).isEmpty = false := List.isEmpty_eq_false_iff.mpr hne
  have hcheck : checkRows "batchInsertQuery" [assignments] = _ :=
    checkRows_of_sameColumns (Assignment.sameColumns_singleton assignments)
  unfold insertRows
  simp only [hsome, hcheck, Bool.false_eq_true, if_false, Trace.result_bind,
    Trace.result_ofExcept, result_built]
  simp only [Assignment.join_layout_inFirstRow]
  rfl

/-- One row is refused in a batch exactly when it is refused alone, and under one code. -/
theorem outcome_insertRows_singleton (builder : Builder) (assignments : List Assignment) :
    (builder.insertRows [assignments]).outcome = (builder.insert assignments).outcome := by
  -- Both look for columns before they look at names.
  by_cases hne : assignments = []
  · subst hne
    rfl
  · unfold Trace.outcome
    rw [result_insert_eq hne, result_insertRows_eq hne]
    rcases Assignment.claim_first_cases "insertQuery" "batchInsertQuery" assignments with
      ⟨hsingle, hbatch⟩ | ⟨first, second, hsingle, hbatch, hcode⟩
    · rw [hsingle, hbatch]
      cases builder.registry.primary <;> rfl
    · rw [hsingle, hbatch]
      exact congrArg Except.error hcode.symm

variable {σ : Type} [Prepared σ]

/-- The values of a row alone are handed over one by one. -/
theorem bindValues_of_row (builder : Builder) (assignments : List Assignment) (statement : σ) :
    builder.bindValues [] assignments {} statement
      = deliver builder.debug ((Assignment.bindings none assignments).map (Call.mk .assignment))
        statement := by
  rw [bindValues_eq ⟨fun _ h => (List.not_mem_nil h).elim, List.nodup_nil⟩, calls,
    Call.ofAssignments_eq]
  show deliver _ (_ ++ []) _ = _
  rw [List.append_nil]

/-- The values of a batch of one row are the same, under the names that it has there. -/
theorem bindBatch_of_row {assignments : List Assignment}
    (h : (Assignment.placeholders none assignments).Nodup) (builder : Builder) (statement : σ) :
    builder.bindBatch [] [assignments] {} statement
      = deliver builder.debug
        (((Assignment.bindings none assignments).map Binding.inFirstRow).map
          (Call.mk .assignment)) statement := by
  have hcheck : checkRows "batchBindValues" [assignments] = .ok () :=
    checkRows_eq_ok_iff.mpr ⟨Assignment.sameColumns_singleton assignments,
      (Assignment.nodup_rowPlaceholders_singleton_iff assignments).mpr h⟩
  unfold bindBatch bindRows
  rw [hcheck, List.isEmpty_cons, if_neg Bool.false_ne_true]
  dsimp only
  rw [bindCriteria_andThen, Call.ofRows_eq, Assignment.rowBindings_singleton]
  show deliver _ ([] ++ (_ ++ [])) _ = _
  rw [List.append_nil, List.nil_append]

/-- A recorder is handed the values of a row. -/
theorem bindValues_keeps (builder : Builder)
    (h : (Assignment.placeholders none assignments).Nodup) :
    let delivery := builder.bindValues [] assignments {} (Overheard.of ({} : Recorder))
    delivery.trace.result = .ok () ∧
      delivery.statement.heard = Assignment.bindings none assignments ∧
      delivery.statement.statement.bindings = Assignment.bindings none assignments := by
  rw [← Assignment.map_name_bindings] at h
  rw [bindValues_of_row]
  exact Recorder.keeps builder.debug .assignment h

/-- A recorder is handed the same by a batch, under the names of its first row. -/
theorem bindBatch_keeps (builder : Builder)
    (h : (Assignment.placeholders none assignments).Nodup) :
    let delivery := builder.bindBatch [] [assignments] {} (Overheard.of ({} : Recorder))
    delivery.trace.result = .ok () ∧
      delivery.statement.heard
        = (Assignment.bindings none assignments).map Binding.inFirstRow ∧
      delivery.statement.statement.bindings
        = (Assignment.bindings none assignments).map Binding.inFirstRow := by
  rw [bindBatch_of_row h]
  refine Recorder.keeps builder.debug .assignment ?_
  rw [← Assignment.rowBindings_singleton, Assignment.map_name_rowBindings]
  exact (Assignment.nodup_rowPlaceholders_singleton_iff assignments).mpr h

/-- **A batch of one row** comes to the same as the row alone. Building the one is refused
exactly when building the other is, for an empty row, a name that is repeated or a table
that is missing, and both under the same code. Where they are built the row has a layout,
whose placeholders are those of its bound assignments: the one text is that of the layout,
and the other that of the layout with a 0 behind each placeholder. The names are then all
different, which is all that binding the batch asks for, and where they are both binders
hand over and record the bound assignments, one by one; in a batch they have the 0 behind
their names. -/
theorem batch_of_one (builder : Builder) (assignments : List Assignment) :
    let single := builder.bindValues [] assignments {} (Overheard.of ({} : Recorder))
    let batch := builder.bindBatch [] [assignments] {} (Overheard.of ({} : Recorder))
    (builder.insertRows [assignments]).outcome = (builder.insert assignments).outcome ∧
      (∀ sql, (builder.insert assignments).result = .ok sql →
        (Assignment.placeholders none assignments).Nodup ∧
          ∃ table, builder.registry.primary = .ok table ∧
            (Assignment.layout table assignments).filterMap Stretch.name?
              = Assignment.placeholders none assignments ∧
            sql = Stretch.join (Assignment.layout table assignments) ∧
            (builder.insertRows [assignments]).result = .ok
              (Stretch.join ((Assignment.layout table assignments).map Stretch.inFirstRow))) ∧
      (batch.trace.result = .ok () ↔ (Assignment.placeholders none assignments).Nodup) ∧
      ((Assignment.placeholders none assignments).Nodup →
        single.trace.result = .ok () ∧ batch.trace.result = .ok () ∧
          single.statement.heard = Assignment.bindings none assignments ∧
          batch.statement.heard = single.statement.heard.map Binding.inFirstRow ∧
          single.statement.statement.bindings = single.statement.heard ∧
          batch.statement.statement.bindings = batch.statement.heard) := by
  intro single batch
  -- What is bound is said once, and serves for the equivalence as well.
  have hbound : (Assignment.placeholders none assignments).Nodup →
      single.trace.result = .ok () ∧ batch.trace.result = .ok () ∧
        single.statement.heard = Assignment.bindings none assignments ∧
        batch.statement.heard = single.statement.heard.map Binding.inFirstRow ∧
        single.statement.statement.bindings = single.statement.heard ∧
        batch.statement.statement.bindings = batch.statement.heard := by
    intro hnodup
    obtain ⟨htaken, hheard, hkept⟩ := bindValues_keeps builder hnodup
    obtain ⟨htakenBatch, hheardBatch, hkeptBatch⟩ := bindBatch_keeps builder hnodup
    exact ⟨htaken, htakenBatch, hheard, hheardBatch.trans (congrArg _ hheard.symm),
      hkept.trans hheard.symm, hkeptBatch.trans hheardBatch.symm⟩
  refine ⟨outcome_insertRows_singleton builder assignments, fun sql hsql => ?_,
    ⟨fun hok => ?_, fun hnodup => (hbound hnodup).2.1⟩, hbound⟩
  · obtain ⟨hne, hclaim, table, htable, rfl⟩ := insert_eq_ok_iff.mp hsql
    obtain ⟨hnodup, -⟩ := Assignment.claim_eq_ok_iff.mp hclaim
    have hbatch : Assignment.claim "batchInsertQuery" []
        (Assignment.rowPlaceholders [assignments]) = .ok () :=
      Assignment.claim_eq_ok_iff.mpr
        ⟨(Assignment.nodup_rowPlaceholders_singleton_iff assignments).mpr hnodup,
          fun _ _ => List.not_mem_nil⟩
    refine ⟨hnodup, table, htable, Assignment.filterMap_name?_layout table assignments,
      (Assignment.join_layout table assignments).symm, ?_⟩
    rw [result_insertRows_eq hne, hbatch, htable]
    rfl
  · have hbind : ((Request.batch [] [assignments] {}).bind builder
        (Overheard.of ({} : Recorder))).trace.result = .ok () := hok
    obtain ⟨⟨-, -, hnodup⟩, -⟩ := Request.heard_of_ok hbind
    exact (Assignment.nodup_rowPlaceholders_singleton_iff assignments).mp hnodup

/-- A row with a column that loses its backtick, and a raw value that looks like a name. -/
def mixedRow : List Assignment :=
  [ { column := "a`b", value := .list [.int 1, .null] },
    { column := "n", value := .text ":ab", bound := false },
    { column := "c", value := .text "x" } ]

theorem batch_of_one_mixedRow :
    let builder : Builder := { registry := .single "users" }
    (builder.insert mixedRow).result
        = .ok "INSERT INTO `users` (a`b,n,c) VALUES (:ab,:ab,:c);" ∧
      (builder.insertRows [mixedRow]).result
        = .ok "INSERT INTO `users` (a`b,n,c) VALUES (:ab0,:ab,:c0);" ∧
      (builder.bindBatch [] [mixedRow] {} (Overheard.of ({} : Recorder))).statement.heard
        = [⟨":ab0", .list [.int 1, .null], .text⟩, ⟨":c0", .text "x", .text⟩] ∧
      (({} : Builder).insertRows [mixedRow]).outcome = .error .noTables ∧
      (builder.insertRows [mixedRow ++ mixedRow]).outcome = .error .placeholderCollision := by
  have hbuilt : (({ registry := .single "users" } : Builder).insert mixedRow).result
      = .ok "INSERT INTO `users` (a`b,n,c) VALUES (:ab,:ab,:c);" := by decide +kernel
  obtain ⟨-, hbatch, -, hbound⟩ := batch_of_one { registry := .single "users" } mixedRow
  obtain ⟨hnodup, table, htable, -, -, hrows⟩ := hbatch _ hbuilt
  obtain ⟨-, -, hsingle, hheard, -, -⟩ := hbound hnodup
  cases htable
  refine ⟨hbuilt, hrows.trans (by decide +kernel), hheard.trans ?_, ?_, ?_⟩
  · rw [hsingle]
    rfl
  · exact (batch_of_one {} mixedRow).1.trans rfl
  · exact (batch_of_one { registry := .single "users" } (mixedRow ++ mixedRow)).1.trans rfl

end Builder

end BoundSql
