import BoundSql.Proofs.ClauseReading
import BoundSql.Proofs.Literal
import BoundSql.Proofs.Statements

/-!
# Reading a statement back

What a reader finds in the parts of a statement besides its clause. Table
names, aliases and join conditions show nothing if the caller has put no colon
into them. Assignments show the placeholders of those that are bound, and a
page shows its own two names.
-/

namespace BoundSql

open Placeholder

/-! ## Tables -/

/-- Doubling the backticks brings no other character. -/
theorem Text.mem_doubled {c : Char} : ∀ {cs : List Char}, c ∈ doubled cs → c ∈ cs := by
  intro cs
  induction cs with
  | nil => intro h; exact h
  | cons d rest ih =>
    intro h
    unfold doubled at h
    split at h
    · rcases List.mem_cons.mp h with rfl | h
      · exact List.mem_cons_self
      · rcases List.mem_cons.mp h with rfl | h
        · exact List.mem_cons_self
        · exact List.mem_cons_of_mem _ (ih h)
    · rcases List.mem_cons.mp h with rfl | h
      · exact List.mem_cons_self
      · exact List.mem_cons_of_mem _ (ih h)

/-- Quotes do not break the silence of a name. -/
theorem Text.silent_quoted {name : String} (h : Silent name) : Silent (quoted name) := by
  intro hc
  rw [quoted, String.toList_ofList, List.cons_append, List.mem_cons, List.mem_append,
    List.mem_singleton] at hc
  rcases hc with hc | hc | hc
  · revert hc
    decide
  · exact h (mem_doubled hc)
  · revert hc
    decide

/-- What a caller has written into the join of a table. -/
def Table.texts (tableAlias : String) (table : Table) : List String :=
  tableAlias :: table.name :: table.on.entries.flatMap fun (left, right) => [left, right]

/-- What a caller has written into a selection from all tables. The conditions of the
first table are not among it. -/
def Registry.texts (registry : Registry) : List String :=
  match registry.tables.entries with
  | [] => []
  | (tableAlias, table) :: joined =>
    tableAlias :: table.name :: joined.flatMap fun (tableAlias, table) => table.texts tableAlias

/-- A table with its alias is silent if the name and the alias are. -/
theorem Table.silent_aliased {tableAlias : String} {table : Table} (halias : Silent tableAlias)
    (hname : Silent table.name) : Silent (table.aliased tableAlias) := by
  have has : Silent " AS " := by decide
  exact ((Text.silent_quoted hname).append has).append (Text.silent_quoted halias)

/-- A condition between tables is silent if its columns are. -/
theorem Table.silent_condition {tableAlias : String} {table : Table}
    (h : ∀ text ∈ table.texts tableAlias, Silent text) : Silent table.condition := by
  have hand : Silent " AND " := by decide
  refine silent_intercalate hand fun text htext => ?_
  obtain ⟨⟨left, right⟩, hpair, rfl⟩ := List.mem_map.mp htext
  have hsides : ∀ side ∈ [left, right], Silent side := by
    intro side hside
    refine h side (List.mem_cons_of_mem _ (List.mem_cons_of_mem _ ?_))
    exact List.mem_flatMap.mpr ⟨(left, right), hpair, hside⟩
  have hleft : Silent left := hsides left List.mem_cons_self
  have hright : Silent right := hsides right (List.mem_cons_of_mem _ List.mem_cons_self)
  exact (hleft.append silent_equals).append hright

/-- A join is silent if all texts of its table are. -/
theorem Table.silent_join {tableAlias text : String} {table : Table}
    (h : table.join tableAlias = .ok text) (htexts : ∀ text ∈ table.texts tableAlias, Silent text) :
    Silent text := by
  have halias : Silent tableAlias := htexts tableAlias List.mem_cons_self
  have hname : Silent table.name :=
    htexts table.name (List.mem_cons_of_mem _ List.mem_cons_self)
  unfold join at h
  split at h
  · cases h
  · cases h
    have hjoin : Silent " JOIN " := by decide
    have hon : Silent " ON " := by decide
    exact ((hjoin.append (silent_aliased halias hname)).append hon).append
      (silent_condition htexts)

theorem Table.silent_joins {joined : List (String × Table)} {joins : List String}
    (h : (joined.mapM fun (tableAlias, table) => table.join tableAlias) = .ok joins)
    (htexts : ∀ text ∈ joined.flatMap fun (tableAlias, table) => table.texts tableAlias,
      Silent text) : ∀ text ∈ joins, Silent text := by
  rw [mapM_eq_ok_iff] at h
  induction h with
  | nil => exact nofun
  | cons hjoin _ ih =>
    rw [List.flatMap_cons, List.forall_mem_append] at htexts
    obtain ⟨hfirst, hrest⟩ := htexts
    exact List.forall_mem_cons.mpr ⟨silent_join hjoin hfirst, ih hrest⟩

/-- A selection shows nothing. -/
theorem Registry.silent_selectFrom {registry : Registry} {columns selection : String}
    (h : registry.selectFrom columns = .ok selection) (hcolumns : Silent columns)
    (htexts : ∀ text ∈ registry.texts, Silent text) : Silent selection := by
  unfold selectFrom at h
  unfold texts at htexts
  split at h
  · cases h
  · next tableAlias table joined hentries =>
    rw [hentries] at htexts
    dsimp only at htexts
    obtain ⟨joins, hjoins, h⟩ := bind_eq_ok_iff.mp h
    cases h
    have halias : Silent tableAlias := htexts tableAlias List.mem_cons_self
    have hname : Silent table.name :=
      htexts table.name (List.mem_cons_of_mem _ List.mem_cons_self)
    have hselect : Silent "SELECT " := by decide
    have hfrom : Silent " FROM " := by decide
    refine (((hselect.append hcolumns).append hfrom).append
      (Table.silent_aliased halias hname)).append ?_
    refine Placeholder.silent_join (Table.silent_joins hjoins fun text htext => ?_)
    exact htexts text (List.mem_cons_of_mem _ (List.mem_cons_of_mem _ htext))

/-- What a caller has written into the name of the primary table. -/
def Registry.primaryTexts (registry : Registry) : List String :=
  match registry.tables.entries with
  | [] => []
  | (_, table) :: _ => [table.name]

theorem Registry.silent_primary {registry : Registry} {table : Table}
    (h : registry.primary = .ok table) (htexts : ∀ text ∈ registry.primaryTexts, Silent text) :
    Silent table.quotedName := by
  unfold primary at h
  unfold primaryTexts at htexts
  split at h
  · cases h
  · next first rest hentries =>
    cases h
    rw [hentries] at htexts
    exact Text.silent_quoted (htexts _ List.mem_cons_self)

/-! ## Pages and orders -/

/-- A page shows its names. -/
theorem Page.trails_clause (page : Page) : Trails page.clause page.names := by
  have hstart : Shows Placeholder.start [Placeholder.start] := isName_start.shows
  have hlimit : Shows Placeholder.limit [Placeholder.limit] := isName_limit.shows
  have hkeyword : Separates " LIMIT " := by decide
  unfold clause names
  by_cases hempty : page.isEmpty
  -- A page that is empty has no limit, and without one nothing is skipped.
  · have hnone : page.hasStart = false := by
      unfold isEmpty at hempty
      simp [hasStart, (by simpa using hempty : page.limit = 0)]
    rw [hnone, hempty]
    exact trails_empty
  · rw [Bool.not_eq_true] at hempty
    rw [hempty]
    by_cases hskip : page.hasStart
    · rw [hskip]
      have htrails := hkeyword.trails_append
        (hstart.append (separates_comma_blank.trails_append hlimit))
      rwa [← String.append_assoc, ← String.append_assoc] at htrails
    · rw [Bool.not_eq_true] at hskip
      rw [hskip]
      exact hkeyword.trails_append hlimit

/-- What a caller has written into a projection. -/
def Projection.texts : Projection → List String
  | all => []
  | columns expressions => expressions

theorem Projection.silent_sql {projection : Projection}
    (h : ∀ text ∈ projection.texts, Silent text) : Silent projection.sql := by
  cases projection with
  | all =>
    show Silent "*"
    decide
  | columns expressions => exact silent_intercalate separates_comma_blank.1 h

theorem trails_orderBy {order : Option String} (h : ∀ text ∈ order, Silent text) :
    Trails (orderBy order) [] := by
  cases order with
  | none => exact trails_empty
  | some order =>
    unfold orderBy
    dsimp only
    split
    · exact trails_empty
    · have hkeyword : Separates " ORDER BY " := by decide
      have hsilent : Silent order := h order rfl
      exact hkeyword.trails_append hsilent.shows

/-! ## Assignments -/

namespace Assignment

/-- What a caller has written into a statement by an assignment: its column, and the
texts of its value if that is not bound. -/
def texts (assignment : Assignment) : List String :=
  assignment.column :: if assignment.bound then [] else assignment.value.texts

/-- The names that a reader finds where the value of an assignment stands. -/
def cellNames (row : Option Nat) (assignment : Assignment) : List String :=
  if assignment.bound then [Placeholder.ofAssignment assignment.column row] else []

/-- The names in the cells of a row are its placeholders. -/
theorem flatMap_cellNames (row : Option Nat) : ∀ assignments : List Assignment,
    assignments.flatMap (cellNames row) = placeholders row assignments := by
  intro assignments
  induction assignments with
  | nil => rfl
  | cons first rest ih =>
    rw [List.flatMap_cons, ih]
    unfold placeholders cellNames
    cases hbound : first.bound <;> simp [hbound]

theorem silent_column {assignment : Assignment} (h : ∀ text ∈ assignment.texts, Silent text) :
    Silent assignment.column :=
  h assignment.column List.mem_cons_self

/-- A placeholder shows itself and a literal shows nothing. -/
theorem shows_cell {assignment : Assignment} (h : ∀ text ∈ assignment.texts, Silent text)
    (row : Option Nat) : Shows (assignment.cell row) (assignment.cellNames row) := by
  unfold cell cellNames
  split
  · exact (isName_ofAssignment assignment.column row).shows
  -- What is not bound is written out, so its texts are among those of the caller.
  · next hbound =>
    refine (Value.silent_literal fun s hs => h s ?_).shows
    unfold texts
    rw [if_neg hbound]
    exact List.mem_cons_of_mem _ hs

variable {assignments : List Assignment}

/-- The settings of an update show the placeholders of bound assignments. -/
theorem shows_settings (h : ∀ assignment ∈ assignments, ∀ text ∈ assignment.texts, Silent text) :
    Shows (settings assignments) (placeholders none assignments) := by
  rw [← flatMap_cellNames]
  refine shows_intercalate separates_comma_blank _ _ assignments fun assignment hassignment => ?_
  have htexts := h assignment hassignment
  exact ((silent_column htexts).append silent_equals).append_shows (shows_cell htexts none)

/-- The values of a row show the placeholders of bound assignments. -/
theorem shows_tuple (h : ∀ assignment ∈ assignments, ∀ text ∈ assignment.texts, Silent text)
    (row : Option Nat) : Shows (tuple row assignments) (placeholders row assignments) := by
  rw [← flatMap_cellNames]
  refine (silent_open.append_shows ?_).close separates_close
  exact shows_intercalate separates_comma _ _ assignments fun assignment hassignment =>
    shows_cell (h assignment hassignment) row

theorem silent_columnList (h : ∀ assignment ∈ assignments, ∀ text ∈ assignment.texts, Silent text) :
    Silent (columnList assignments) := by
  refine (silent_open.append (silent_intercalate separates_comma.1 fun text htext => ?_)).append
    separates_close.1
  obtain ⟨assignment, hassignment, rfl⟩ := List.mem_map.mp htext
  exact silent_column (h assignment hassignment)

end Assignment

end BoundSql
