import BoundSql.Proofs.Batch
import BoundSql.Proofs.OneColumn
import Mathlib.Data.List.DropRight

/-!
# Columns that end in no digit

What a placeholder writes behind the stem of a column are digits: a position, a
position and an index, or a row. A stem that ends in a digit can be taken for a
shorter one with more digits behind it, and that is how names of different
columns come to collide. Of a `Plain` column the digits can be told from the
stem, because they are all the digits at the end of the name:

> `Plain.suffix_numbered`: a name of a plain column ends in what was written
> behind its stem and in no other digit.

So plain columns can only share a name where they share what is written behind
the stem too:

> `Builder.plain_columns_apart`: criteria on plain columns compile where no list
> is bound or where they are nine or fewer. Assignments to plain columns with
> distinct stems collide with no criterion, whatever its column, and rows that
> are bound in such columns do not collide with each other, however many.
-/

namespace BoundSql

open Placeholder

/-! ## The digits at the end of a name -/

/-- Behind an element that does not pass a test, the elements that pass are the longest
such run at the end. -/
theorem rtakeWhile_append_of_all {α : Type} {p : α → Bool} {front back : List α}
    (hfront : ∀ c ∈ front.getLast?, p c = false) (hback : ∀ c ∈ back, p c = true) :
    (front ++ back).rtakeWhile p = back := by
  have hstop : front.reverse.takeWhile p = [] := by
    rw [List.takeWhile_eq_nil_iff]
    intro hlength
    have hlast := hfront front.reverse[0] (by
      rw [← List.head?_reverse, List.head?_eq_getElem?]
      exact List.getElem?_eq_getElem hlength)
    exact Bool.not_eq_true _ ▸ hlast
  rw [List.rtakeWhile, List.reverse_append,
    List.takeWhile_append_of_pos fun c hc => hback c (List.mem_reverse.mp hc), hstop,
    List.append_nil, List.reverse_reverse]

namespace Placeholder

/-- The digits at the end of a name. -/
def suffix (name : String) : List Char :=
  name.toList.rtakeWhile Char.isDigit

/-- The stem of a column is not empty, and it does not end in a digit. -/
def Plain (column : String) : Prop :=
  (stem column).toList.getLast?.any (fun c => !c.isDigit) = true

instance (column : String) : Decidable (Plain column) :=
  inferInstanceAs (Decidable (_ = true))

/-- The stem of a plain column ends in something that is no digit. -/
theorem Plain.getLast? {column : String} (h : Plain column) :
    ∃ c, (stem column).toList.getLast? = some c ∧ c.isDigit = false := by
  unfold Plain at h
  cases hlast : (stem column).toList.getLast? with
  | none =>
    rw [hlast] at h
    cases h
  | some c =>
    rw [hlast] at h
    exact ⟨c, rfl, (Bool.not_eq_true' _).mp h⟩

/-- The last character of a stem behind its colon. -/
theorem Plain.getLast?_name {column : String} (h : Plain column) :
    ∃ c, (":" ++ stem column).toList.getLast? = some c ∧ c.isDigit = false := by
  obtain ⟨c, hlast, hdigit⟩ := h.getLast?
  refine ⟨c, ?_, hdigit⟩
  rw [String.toList_append, List.getLast?_append, hlast]
  rfl

/-- **What follows a plain stem** is all the digits at the end of the name. -/
theorem Plain.suffix_numbered {column : String} (h : Plain column) {digits : String}
    (hdigits : ∀ c ∈ digits.toList, c.isDigit = true) :
    suffix (":" ++ stem column ++ digits) = digits.toList := by
  obtain ⟨c, hlast, hdigit⟩ := h.getLast?_name
  rw [suffix, String.toList_append]
  refine rtakeWhile_append_of_all (fun other hother => ?_) hdigits
  rw [hlast, Option.mem_some_iff] at hother
  exact hother ▸ hdigit

theorem start_eq : start = ":" ++ "start" := rfl

theorem limit_eq : limit = ":" ++ "limit" := rfl

theorem Plain.not_endsInDigit {column : String} (h : Plain column) :
    ¬ EndsInDigit (":" ++ stem column) := by
  obtain ⟨c, hlast, hdigit⟩ := h.getLast?_name
  intro hends
  obtain ⟨other, hother, hend⟩ := hends
  rw [hlast, Option.some.injEq] at hother
  rw [← hother, hdigit] at hend
  cases hend

end Placeholder

/-! ## Criteria -/

/-- Counters are written in digits. -/
theorem Counter.isDigit_of_mem_text (counter : Counter) :
    ∀ c ∈ counter.text.toList, c.isDigit = true := by
  intro c hc
  unfold text at hc
  rw [String.toList_append, List.mem_append] at hc
  rcases hc with hc | hc
  · exact toString_digits counter.position c hc
  · cases hindex : counter.index with
    | none =>
      rw [hindex] at hc
      cases hc
    | some index =>
      rw [hindex] at hc
      exact toString_digits index c hc

section Criteria

variable {policy : Policy}

/-- Names of plain columns end in the texts of their counters. -/
theorem map_suffix_plannedFrom : ∀ {criteria : List Criterion} (position : Nat),
    (∀ criterion ∈ criteria, Plain criterion.column) →
      ((plannedFrom policy position criteria).flatMap Plan.names).map suffix
        = (countersFrom policy position criteria).map fun counter => counter.text.toList := by
  intro criteria
  induction criteria with
  | nil => intro position _; rfl
  | cons criterion rest ih =>
    intro position hplain
    obtain ⟨hfirst, hrest⟩ := List.forall_mem_cons.mp hplain
    rw [plannedFrom, List.flatMap_cons, List.map_append, ih _ hrest, criterion.names_planned,
      countersFrom, List.map_append, List.map_map]
    rw [List.append_left_inj]
    refine List.map_congr_left fun counter _ => ?_
    rw [Function.comp_apply]
    exact hfirst.suffix_numbered counter.isDigit_of_mem_text

/-- Plain columns keep their names apart where the texts of the counters differ. -/
theorem nodup_names_of_plain {criteria : List Criterion}
    (hplain : ∀ criterion ∈ criteria, Plain criterion.column)
    (htexts : ((counters policy criteria).map Counter.text).Nodup) :
    ((planned policy criteria).flatMap Plan.names).Nodup := by
  refine List.Nodup.of_map suffix ?_
  rw [planned, map_suffix_plannedFrom 1 hplain]
  have hlists := htexts.map fun _ _ h => String.toList_injective h
  rwa [List.map_map] at hlists

/-- The texts of the counters differ where no list is bound, and in nine criteria or fewer. -/
theorem nodup_text_of_few {criteria : List Criterion}
    (h : (∀ criterion ∈ criteria, (criterion.effectiveComparison policy).takesValue = true →
        ∀ items, criterion.value ≠ some (.list items)) ∨ criteria.length ≤ 9) :
    ((counters policy criteria).map Counter.text).Nodup := by
  rw [nodup_text_iff]
  intro hmeet
  obtain ⟨counter, hcounter, later, hlater, hposition, hindex, htext⟩ := hmeet
  rcases h with hscalars | hlength
  · obtain ⟨criterion, hcriterion, hmem⟩ := mem_countersFrom hcounter
    obtain ⟨htakes, items, hvalue⟩ := Criterion.index_of_mem_counters hmem hindex
    exact hscalars criterion hcriterion htakes items hvalue
  · obtain ⟨hlow, -⟩ := position_of_mem_countersFrom hcounter
    obtain ⟨-, hhigh⟩ := position_of_mem_countersFrom hlater
    obtain ⟨-, hten⟩ := Counter.of_text_eq hposition htext
    omega

end Criteria

/-! ## Assignments -/

/-- The names of a page are there only where the clause uses them. -/
theorem Page.used_of_mem_names {page : Page} {name : String} (h : name ∈ page.names) :
    (name = Placeholder.start ∧ page.start ≠ 0 ∧ page.limit ≠ 0) ∨
      (name = Placeholder.limit ∧ page.limit ≠ 0) := by
  rw [names, List.mem_append] at h
  rcases h with h | h
  · split at h
    · next hskips =>
      unfold hasStart at hskips
      rw [Bool.and_eq_true, bne_iff_ne, bne_iff_ne] at hskips
      exact Or.inl ⟨List.mem_singleton.mp h, hskips⟩
    · cases h
  · split at h
    · cases h
    · next hreturns =>
      unfold isEmpty at hreturns
      exact Or.inr ⟨List.mem_singleton.mp h, fun hzero => hreturns (beq_iff_eq.mpr hzero)⟩

namespace Assignment

/-- The columns of the bound ones of some assignments. -/
def boundColumns (assignments : List Assignment) : List String :=
  columns (assignments.filter Assignment.bound)

/-- The bound columns are plain, and their stems differ from each other. -/
structure PlainlyBound (assignments : List Assignment) : Prop where
  plain : ∀ column ∈ boundColumns assignments, Plain column
  distinct : ((boundColumns assignments).map stem).Nodup

instance (assignments : List Assignment) : Decidable (PlainlyBound assignments) :=
  decidable_of_iff (_ ∧ _) ⟨fun h => ⟨h.1, h.2⟩, fun h => ⟨h.plain, h.distinct⟩⟩

variable {assignments : List Assignment} {rows : List (List Assignment)}

/-- Every placeholder is that of a bound column, and the stem is all it takes of it. -/
theorem placeholders_eq (row : Option Nat) (assignments : List Assignment) :
    placeholders row assignments
      = ((boundColumns assignments).map stem).map fun stem =>
          ":" ++ stem ++ row.elim "" toString := by
  unfold placeholders boundColumns columns
  rw [List.map_map, List.map_map]
  refine List.map_congr_left fun assignment _ => ?_
  cases row with
  | none => exact (String.append_empty).symm
  | some row => rfl

/-- A placeholder is the name of a bound column, with the row behind it in a batch. -/
theorem exists_column_of_mem_placeholders {row : Option Nat} {name : String}
    (h : name ∈ placeholders row assignments) :
    ∃ column ∈ boundColumns assignments, name = ":" ++ stem column ++ row.elim "" toString := by
  rw [placeholders_eq, List.map_map] at h
  obtain ⟨column, hcolumn, rfl⟩ := List.mem_map.mp h
  exact ⟨column, hcolumn, rfl⟩

/-- Plainly bound assignments have placeholders of their own, with and without a row. -/
theorem PlainlyBound.nodup_placeholders (h : PlainlyBound assignments) (row : Option Nat) :
    (placeholders row assignments).Nodup := by
  rw [placeholders_eq]
  refine h.distinct.map fun one other hsame => ?_
  exact (String.append_right_inj _).mp ((String.append_left_inj _).mp hsame)

/-- The names of a row end in its number. -/
theorem PlainlyBound.suffix_of_mem_placeholders (h : PlainlyBound assignments) {index : Nat}
    {name : String} (hname : name ∈ placeholders (some index) assignments) :
    suffix name = Nat.toDigits 10 index := by
  obtain ⟨column, hcolumn, rfl⟩ := exists_column_of_mem_placeholders hname
  have hsuffix := (h.plain column hcolumn).suffix_numbered (toString_digits index)
  rw [Nat.toString_eq_repr, Nat.toList_repr] at hsuffix
  rw [← hsuffix, ← Nat.toString_eq_repr]
  rfl

/-- Rows of plain columns share no name. -/
theorem nodup_rowPlaceholders (h : ∀ row ∈ rows, PlainlyBound row) :
    (rowPlaceholders rows).Nodup := by
  have hrow : ∀ entry ∈ rows.zipIdx, PlainlyBound entry.1 :=
    fun entry hentry => h entry.1 (List.fst_mem_of_mem_zipIdx hentry)
  refine List.nodup_flatMap.mpr
    ⟨fun entry hentry => (hrow entry hentry).nodup_placeholders _, ?_⟩
  have hnumbers : (rows.zipIdx.map Prod.snd).Nodup := by
    rw [List.zipIdx_map_snd]
    exact List.nodup_range'
  refine (List.pairwise_map.mp hnumbers).imp_of_mem fun {one other} hone hother hne => ?_
  -- A common name would end in the numbers of both rows.
  intro name hname hname'
  have hsame := ((hrow one hone).suffix_of_mem_placeholders hname).symm.trans
    ((hrow other hother).suffix_of_mem_placeholders hname')
  exact hne (toDigits_injective hsame)

/-- Assignments to plain columns meet neither criteria nor the names of a page that are
none of theirs. -/
theorem PlainlyBound.claim {operation : String} (h : PlainlyBound assignments) {policy : Policy}
    {criteria : List Criterion} {page : Page}
    (hstart : page.start ≠ 0 → page.limit ≠ 0 → "start" ∉ (boundColumns assignments).map stem)
    (hlimit : page.limit ≠ 0 → "limit" ∉ (boundColumns assignments).map stem) :
    claim operation ((planned policy criteria).flatMap Plan.names ++ page.names)
      (placeholders none assignments) = .ok () := by
  refine claim_eq_ok_iff.mpr ⟨h.nodup_placeholders none, fun name hname htaken => ?_⟩
  obtain ⟨column, hcolumn, rfl⟩ := exists_column_of_mem_placeholders hname
  have hstem : stem column ∈ (boundColumns assignments).map stem :=
    List.mem_map.mpr ⟨column, hcolumn, rfl⟩
  have hempty : ":" ++ stem column ++ (none : Option Nat).elim "" toString = ":" ++ stem column :=
    String.append_empty
  rw [hempty] at htaken
  rcases List.mem_append.mp htaken with htaken | htaken
  · exact (h.plain column hcolumn).not_endsInDigit (planned_names htaken).2
  · rcases Page.used_of_mem_names htaken with ⟨hsame, hskips, hreturns⟩ | ⟨hsame, hreturns⟩
    · rw [(String.append_right_inj ":").mp (hsame.trans start_eq)] at hstem
      exact hstart hskips hreturns hstem
    · rw [(String.append_right_inj ":").mp (hsame.trans limit_eq)] at hstem
      exact hlimit hreturns hstem

end Assignment

/-! ## Statements -/

/-- A result that may be a fault, but not that of a collision. -/
def Collisionless {α : Type} (result : Except Fault α) : Prop :=
  ∀ fault, result = .error fault → fault.code ≠ .placeholderCollision

namespace Collisionless

variable {α β : Type}

theorem ok (value : α) : Collisionless (.ok value) := by
  intro fault h
  cases h

theorem error {fault : Fault} (h : fault.code ≠ .placeholderCollision) :
    Collisionless (.error fault : Except Fault α) := by
  intro other hother
  cases hother
  exact h

/-- Two steps report no collision if neither does. -/
theorem bind {first : Except Fault α} {next : α → Except Fault β} (hfirst : Collisionless first)
    (hnext : ∀ value, Collisionless (next value)) : Collisionless (first.bind next) := by
  cases first with
  | error fault => exact error (hfirst fault rfl)
  | ok value => exact hnext value

end Collisionless

/-- There is no collision between tables. -/
theorem Registry.collisionless_primary (registry : Registry) :
    Collisionless registry.primary := by
  unfold primary
  split
  · exact .error (by decide)
  · exact .ok _

/-- Rows that do not go together are not refused for a collision. -/
theorem Assignment.collisionless_checkColumns (rows : List (List Assignment)) :
    Collisionless (checkColumns rows) := by
  unfold checkColumns
  split
  · exact .ok ()
  · split
    · exact .error nofun
    · exact .ok ()

/-- A row of calls ends in a fault only where the statement itself refuses a binding. -/
theorem exists_refusal_of_deliver {σ : Type} [Prepared σ] {debug : Bool} {calls : List Call}
    {statement : σ} {fault : Fault}
    (h : (deliver debug calls statement).trace.result = .error fault) :
    ∃ middle binding final, Prepared.bind (σ := σ) middle binding = (final, .error fault) := by
  obtain ⟨made, -, hmakes⟩ := deliver_makes debug calls statement []
  rw [h] at hmakes
  cases hmakes with
  | upTo _ _ refused => exact ⟨_, _, _, refused⟩

namespace Builder

variable {builder : Builder} {criteria : List Criterion} {assignments : List Assignment}
  {rows : List (List Assignment)} {page : Page} {clause : Where}

/-- An update whose names can be claimed is refused for other things only. -/
theorem collisionless_update
    (hclause : Where.compile builder.policy.policy criteria = .ok clause)
    (hclaim : Assignment.claim "updateQuery" (clause.names ++ page.names)
      (Assignment.placeholders none assignments) = .ok ()) :
    Collisionless (builder.update criteria assignments page).result := by
  unfold update
  cases assignments with
  | nil => exact .error nofun
  | cons first rest =>
    simp only [List.isEmpty_cons, Bool.false_eq_true, if_false, Trace.result_bind,
      Trace.result_ofExcept, result_clause, result_built]
    refine builder.registry.collisionless_primary.bind fun table => ?_
    rw [hclause, Except.bind, hclaim]
    exact .ok _

/-- Where the placeholders of the rows differ, their check finds no collision. -/
theorem collisionless_checkRows (operation : String)
    (hnodup : (Assignment.rowPlaceholders rows).Nodup) :
    Collisionless (checkRows operation rows) := by
  have hclaim : Assignment.claim operation [] (Assignment.rowPlaceholders rows) = .ok () :=
    Assignment.claim_eq_ok_iff.mpr ⟨hnodup, fun _ _ => List.not_mem_nil⟩
  refine (Assignment.collisionless_checkColumns rows).bind fun _ => ?_
  rw [hclaim]
  exact .ok ()

/-- A batch is not refused for a collision where the placeholders of its rows differ. -/
theorem collisionless_insertRows (hnodup : (Assignment.rowPlaceholders rows).Nodup) :
    Collisionless (builder.insertRows rows).result := by
  unfold insertRows
  dsimp only
  cases rows.headD [] with
  | nil => exact .error nofun
  | cons first rest =>
    simp only [List.isEmpty_cons, Bool.false_eq_true, if_false, Trace.result_bind,
      Trace.result_ofExcept, result_built]
    refine (collisionless_checkRows _ hnodup).bind fun _ => ?_
    exact builder.registry.collisionless_primary.bind fun table => .ok _

/-- Binding rows ends in a collision only where the statement reports one of its own. -/
theorem exists_refusal_of_bindBatch {σ : Type} [Prepared σ]
    (hnodup : (Assignment.rowPlaceholders rows).Nodup) {statement : σ} {fault : Fault}
    (h : (builder.bindBatch [] rows page statement).trace.result = .error fault)
    (hcode : fault.code = .placeholderCollision) :
    ∃ middle binding final, Prepared.bind (σ := σ) middle binding = (final, .error fault) := by
  have hcheck : Collisionless (Request.batch [] rows page).check := by
    rw [Request.check]
    split
    · refine .error ?_
      intro hcollision
      cases hcollision
    · exact collisionless_checkRows _ hnodup
  have hbind : ((Request.batch [] rows page).bind builder statement).trace.result
      = .error fault := h
  rw [Request.bind_eq] at hbind
  cases hverdict : (Request.batch [] rows page).verdict builder with
  | error refused =>
    rw [hverdict] at hbind
    cases hbind
    exact absurd hcode (hcheck.bind (fun _ => .ok []) fault hverdict)
  | ok plans =>
    rw [hverdict] at hbind
    exact exists_refusal_of_deliver hbind

/-- **Plain columns never collide.** Criteria on plain columns that pass their own checks
compile, provided that none of them binds a list or that they are nine or fewer. Beside
criteria that compile, assignments to plain columns with distinct stems are refused for no
collision, as long as they leave the names to the page that it uses. Nor are any number of
rows whose bound columns are plain with distinct stems in each row: not when they are
inserted, and when they are bound only by a statement that reports a collision itself.
Where nothing else is wrong either, all of this ends well. -/
theorem plain_columns_apart (policy : Policy) (builder : Builder) (criteria : List Criterion)
    (assignments : List Assignment) (rows : List (List Assignment)) (page : Page) :
    ((∀ criterion ∈ criteria, criterion.check policy = .ok () ∧ Plain criterion.column) →
        (∀ criterion ∈ criteria, (criterion.effectiveComparison policy).takesValue = true →
            ∀ items, criterion.value ≠ some (.list items)) ∨ criteria.length ≤ 9 →
          ∃ clause, Where.compile policy criteria = .ok clause) ∧
      (∀ clause, Where.compile builder.policy.policy criteria = .ok clause →
        Assignment.PlainlyBound assignments →
        (page.start ≠ 0 → page.limit ≠ 0 →
          "start" ∉ (Assignment.boundColumns assignments).map stem) →
        (page.limit ≠ 0 → "limit" ∉ (Assignment.boundColumns assignments).map stem) →
          Collisionless (builder.update criteria assignments page).result ∧
            (assignments ≠ [] → builder.registry.isEmpty = false →
              ∃ sql, (builder.update criteria assignments page).result = .ok sql)) ∧
      ((∀ row ∈ rows, Assignment.PlainlyBound row) →
        Collisionless (builder.insertRows rows).result ∧
          (∀ (σ : Type) [Prepared σ] (statement : σ) (fault : Fault),
            (builder.bindBatch [] rows page statement).trace.result = .error fault →
              fault.code = .placeholderCollision →
                ∃ (middle final : σ) (binding : Binding),
                  Prepared.bind middle binding = (final, .error fault)) ∧
          (rows.headD [] ≠ [] → Assignment.SameColumns rows →
            (builder.registry.isEmpty = false →
                ∃ sql, (builder.insertRows rows).result = .ok sql) ∧
              (builder.bindBatch [] rows page ({} : Recorder)).trace.result = .ok ())) := by
  refine ⟨fun hcriteria hfew => ?_, fun clause hclause hassignments hstart hlimit => ?_,
    fun hrows => ?_⟩
  · have hrefuses := Where.compile_refusesRepeats fun criterion hcriterion =>
      (hcriteria criterion hcriterion).1
    have hnodup := nodup_names_of_plain (fun criterion hcriterion =>
      (hcriteria criterion hcriterion).2) (nodup_text_of_few hfew)
    cases hclause : Where.compile policy criteria with
    | ok clause => exact ⟨clause, rfl⟩
    | error fault => exact absurd hnodup (hrefuses.refused_iff.mp ⟨fault, hclause⟩)
  · have hclaim : Assignment.claim "updateQuery" (clause.names ++ page.names)
        (Assignment.placeholders none assignments) = .ok () := by
      rw [Where.names_of_compile hclause]
      exact hassignments.claim hstart hlimit
    refine ⟨collisionless_update hclause hclaim, fun hne hregistry => ?_⟩
    obtain ⟨table, htable⟩ := Registry.primary_of_isEmpty_eq_false hregistry
    exact ⟨_, update_eq_ok_iff.mpr ⟨hne, table, clause, htable, hclause, hclaim, rfl⟩⟩
  · have hnodup := Assignment.nodup_rowPlaceholders hrows
    refine ⟨collisionless_insertRows hnodup, fun σ _ statement fault hfault hcode => ?_,
      fun hne hcolumns => ⟨fun hregistry => ?_, ?_⟩⟩
    · obtain ⟨middle, binding, final, hrefused⟩ := exists_refusal_of_bindBatch hnodup hfault hcode
      exact ⟨middle, final, binding, hrefused⟩
    · obtain ⟨table, htable⟩ := Registry.primary_of_isEmpty_eq_false hregistry
      exact ⟨_, insertRows_eq_ok_iff.mpr
        ⟨hne, checkRows_eq_ok_iff.mpr ⟨hcolumns, hnodup⟩, table, htable, rfl⟩⟩
    · have hrowsNe : rows ≠ [] := by
        rintro rfl
        exact hne rfl
      exact (builder.bindBatch_recorded
        (show (Request.batch [] rows page).Fits from ⟨hrowsNe, hcolumns, hnodup⟩)).1

/-- Conditions on two columns of one stem: a list in the first place, and a single value in
the last. -/
def oneStem (between : Nat) : List Criterion :=
  Criterion.isIn "a.b" [.int 1]
    :: (List.replicate between (Criterion.isNull "a-b") ++ [Criterion.equals "a-b" (.int 2)])

/-- A row in which the column that ends in a digit is not bound. -/
def plainRow : List Assignment :=
  [{ column := "a", value := .int 1 }, .raw "a1" "NOW()", { column := "a_", value := .null }]

/-- Nine conditions, an update whose columns are called like a criterion and like the start
of a page that has none, and eleven rows. A tenth condition would make the first two
columns collide. -/
theorem plain_columns_apart_oneStem :
    let builder : Builder := { registry := .single "users" }
    let assignments : List Assignment :=
      [{ column := "name", value := .text "Ann" }, { column := "`start`", value := .int 3 }]
    (∃ clause, Where.compile {} (oneStem 7) = .ok clause) ∧
      Where.compile {} (oneStem 8)
        = .error ((Fault.of (.placeholderCollision ":a_b10")).atPosition 10) ∧
      (∃ sql, (builder.update [Criterion.equals "name" (.int 1)] assignments
        { limit := 5 }).result = .ok sql) ∧
      (∃ sql, (builder.insertRows (List.replicate 11 plainRow)).result = .ok sql) ∧
      (builder.bindBatch [] (List.replicate 11 plainRow) {} ({} : Recorder)).trace.result
        = .ok () := by
  intro builder assignments
  have hregistry : builder.registry.isEmpty = false := by decide
  obtain ⟨hcriteria, -, hrows⟩ := plain_columns_apart {} builder (oneStem 7) assignments
    (List.replicate 11 plainRow) {}
  obtain ⟨-, hset, -⟩ := plain_columns_apart {} builder [Criterion.equals "name" (.int 1)]
    assignments [] { limit := 5 }
  obtain ⟨-, -, hends⟩ := hrows fun row hrow =>
    (List.eq_of_mem_replicate hrow).symm ▸ (by decide +kernel)
  obtain ⟨hinsert, hbind⟩ := hends (by decide) (by decide +kernel)
  refine ⟨hcriteria (by decide +kernel) (Or.inr (by decide)), rfl, ?_, hinsert hregistry, hbind⟩
  exact (hset _ rfl (by decide +kernel) (fun hzero => absurd rfl hzero)
    fun _ => by decide +kernel).2 (by decide) hregistry

end Builder

end BoundSql
