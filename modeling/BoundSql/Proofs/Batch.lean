import BoundSql.Proofs.Collision
import BoundSql.Proofs.StatementReading
import BoundSql.Proofs.TupleReading

/-!
# Batches in place

The placeholder of a cell is made of its column and the number of its row, so
that cells of different rows and columns can come out under one name. A batch
in which they do is refused. In all others a name leads back to its cell:

> `Assignment.readTuples_tuples`: who reads the values of a batch finds the rows
> as they were given, cell by cell, and `getElem?_inj_of_nodup_flatMap`: no name
> is found in two places.

Both meet in `Builder.insertRows_in_place`. That needs raw literals which cannot
be taken for more or for less than one entry, and for no placeholder.
-/

namespace BoundSql

open Placeholder

/-- What stands in a column of a row, both counted from 0. -/
def entryAt {α : Type} (rows : List (List α)) (row column : Nat) : Option α :=
  rows[row]?.bind (·[column]?)

/-- Where parts of distinct elements are all different, a part has one place. -/
theorem getElem?_inj_of_nodup_flatMap {α β : Type} {parts : α → List β} {xs : List α}
    (h : (xs.flatMap parts).Nodup) {i j : Nat} {x y : α} {part : β} (hx : xs[i]? = some x)
    (hy : xs[j]? = some y) (hpartx : part ∈ parts x) (hparty : part ∈ parts y) : i = j := by
  have hapart := List.pairwise_iff_getElem.mp (List.nodup_flatMap.mp h).2
  obtain ⟨hi, rfl⟩ := List.getElem?_eq_some_iff.mp hx
  obtain ⟨hj, rfl⟩ := List.getElem?_eq_some_iff.mp hy
  rcases Nat.lt_trichotomy i j with hlt | heq | hgt
  · exact absurd hparty (hapart i j hi hj hlt hpartx)
  · exact heq
  · exact absurd hpartx (hapart j i hj hi hgt hparty)

/-! ## Cells -/

/-- There is no comma, no colon and no parenthesis in a text. -/
def Unmarked (text : String) : Prop :=
  ',' ∉ text.toList ∧ Silent text ∧ Unenclosed text

instance (text : String) : Decidable (Unmarked text) :=
  inferInstanceAs (Decidable (_ ∧ _))

/-- A name has no character that is neither its colon nor a word character. -/
theorem Placeholder.IsName.not_mem {name : String} (h : IsName name) {c : Char} (hcolon : c ≠ ':')
    (hword : isWordChar c = false) : c ∉ name.toList := by
  obtain ⟨word, hname, hall⟩ := h
  rw [hname, List.mem_cons, not_or]
  refine ⟨hcolon, fun hc => ?_⟩
  rw [hall c hc] at hword
  cases hword

/-- Every name has a colon. -/
theorem Placeholder.IsName.colon_mem {name : String} (h : IsName name) : ':' ∈ name.toList := by
  obtain ⟨word, hname, -⟩ := h
  rw [hname]
  exact List.mem_cons_self

namespace Assignment

/-- What stands in the cells of a batch, row by row. -/
def cells (rows : List (List Assignment)) : List (List String) :=
  rows.zipIdx.map fun (row, index) => row.map (cell (some index))

/-- The cell at a place is that of the assignment at this place, with the number of the row. -/
theorem entryAt_cells (rows : List (List Assignment)) (i j : Nat) :
    entryAt (cells rows) i j = (entryAt rows i j).map (cell (some i)) := by
  unfold entryAt cells
  rw [List.getElem?_map, List.getElem?_zipIdx, Nat.zero_add]
  cases rows[i]? with
  | none => rfl
  | some row =>
    show (row.map (cell (some i)))[j]? = _
    rw [List.getElem?_map]
    rfl

theorem entryAt_cells_of {rows : List (List Assignment)} {i j : Nat} {assignment : Assignment}
    (h : entryAt rows i j = some assignment) :
    entryAt (cells rows) i j = some (assignment.cell (some i)) := by
  rw [entryAt_cells, h]
  rfl

/-- The cell of a bound assignment is a name. -/
theorem isName_cell {assignment : Assignment} (h : assignment.bound = true) (row : Option Nat) :
    IsName (assignment.cell row) := by
  rw [cell, if_pos h]
  exact isName_ofAssignment assignment.column row

/-- A cell is one entry of its tuple. -/
theorem isEntry_cell {assignment : Assignment}
    (h : assignment.bound = false → Unmarked assignment.value.literal) (row : Option Nat) :
    IsEntry (assignment.cell row) := by
  cases hbound : assignment.bound with
  | true =>
    have hname := isName_cell hbound row
    exact ⟨hname.not_mem (by decide) rfl, hname.not_mem (by decide) rfl,
      hname.not_mem (by decide) rfl⟩
  | false =>
    obtain ⟨hcomma, -, hopen⟩ := h hbound
    rw [cell, hbound, if_neg Bool.false_ne_true]
    exact ⟨hcomma, hopen⟩

/-- **The rows of a batch are read back** cell by cell. -/
theorem readTuples_tuples {rows : List (List Assignment)} (hne : rows ≠ [])
    (hrows : ∀ row ∈ rows, row ≠ [])
    (hraw : ∀ row ∈ rows, ∀ assignment ∈ row, assignment.bound = false →
      Unmarked assignment.value.literal) :
    readTuples (tuples rows) = some (cells rows) := by
  have htuples : tuples rows
      = ",".intercalate ((cells rows).map fun row => enclosed (",".intercalate row)) := by
    unfold tuples cells
    rw [List.map_map]
    rfl
  rw [htuples, readTuples_rows]
  · exact mt List.map_eq_nil_iff.mp (mt List.zipIdx_eq_nil_iff.mp hne)
  · intro entries hentries
    obtain ⟨entry, hentry, rfl⟩ := List.mem_map.mp hentries
    have hrow : entry.1 ∈ rows := List.fst_mem_of_mem_zipIdx hentry
    refine ⟨mt List.map_eq_nil_iff.mp (hrows entry.1 hrow), fun text htext => ?_⟩
    obtain ⟨assignment, hassignment, rfl⟩ := List.mem_map.mp htext
    exact isEntry_cell (hraw entry.1 hrow assignment hassignment) _

/-! ## Names of cells -/

/-- A bound cell is bound under its placeholder, with its row. -/
theorem mem_rowBindings {rows : List (List Assignment)} {i j : Nat} {assignment : Assignment}
    (h : entryAt rows i j = some assignment) (hbound : assignment.bound = true) :
    Call.assignmentBinding (some i) assignment ∈ rowBindings rows := by
  obtain ⟨row, hrow, hassignment⟩ := Option.bind_eq_some_iff.mp h
  refine List.mem_flatMap.mpr ⟨(row, i), List.mem_zipIdx_iff_getElem?.mpr hrow, ?_⟩
  refine List.mem_map.mpr ⟨assignment, List.mem_filter.mpr ⟨?_, hbound⟩, rfl⟩
  exact List.mem_of_getElem? hassignment

/-- Every placeholder of the rows stands in a cell. -/
theorem exists_cell_of_mem_rowPlaceholders {rows : List (List Assignment)} {name : String}
    (h : name ∈ rowPlaceholders rows) :
    ∃ i j assignment, entryAt rows i j = some assignment ∧ assignment.bound = true ∧
      assignment.cell (some i) = name := by
  obtain ⟨⟨row, i⟩, hentry, hname⟩ := List.mem_flatMap.mp h
  obtain ⟨assignment, hassignment, rfl⟩ := List.mem_map.mp hname
  obtain ⟨hmem, hbound⟩ := List.mem_filter.mp hassignment
  obtain ⟨j, hj, hget⟩ := List.mem_iff_getElem.mp hmem
  refine ⟨i, j, assignment, ?_, hbound, by rw [cell, if_pos hbound]⟩
  unfold entryAt
  rw [List.mem_zipIdx_iff_getElem?.mp hentry]
  exact hget ▸ List.getElem?_eq_getElem hj

/-- A bound assignment has the name that is its cell. -/
theorem cell_mem_cellNames {assignment : Assignment} (h : assignment.bound = true)
    (row : Option Nat) : assignment.cell row ∈ assignment.cellNames row := by
  rw [cell, cellNames, if_pos h, if_pos h]
  exact List.mem_cons_self

/-- The names of all cells, row by row, are the placeholders of the rows. -/
theorem flatMap_flatMap_cellNames (rows : List (List Assignment)) :
    (rows.zipIdx.flatMap fun (row, index) => row.flatMap (cellNames (some index)))
      = rowPlaceholders rows := by
  unfold rowPlaceholders
  congr 1
  funext entry
  exact flatMap_cellNames (some entry.2) entry.1

/-- Two bound cells under one name are one cell. -/
theorem place_unique {rows : List (List Assignment)} (h : (rowPlaceholders rows).Nodup)
    {i j i' j' : Nat} {assignment assignment' : Assignment}
    (hcell : entryAt rows i j = some assignment) (hcell' : entryAt rows i' j' = some assignment')
    (hbound : assignment.bound = true) (hbound' : assignment'.bound = true)
    (hname : assignment.cell (some i) = assignment'.cell (some i')) : i = i' ∧ j = j' := by
  obtain ⟨row, hrow, hassignment⟩ := Option.bind_eq_some_iff.mp hcell
  obtain ⟨row', hrow', hassignment'⟩ := Option.bind_eq_some_iff.mp hcell'
  rw [← flatMap_flatMap_cellNames] at h
  have hzip : ∀ {index : Nat} {found : List Assignment}, rows[index]? = some found →
      rows.zipIdx[index]? = some (found, index) := by
    intro index found hfound
    rw [List.getElem?_zipIdx, hfound, Nat.zero_add]
    rfl
  have hpart : ∀ {index : Nat} {found : List Assignment} {one : Assignment}, one ∈ found →
      one.bound = true → one.cell (some index) ∈ found.flatMap (cellNames (some index)) :=
    fun hone hbound => List.mem_flatMap.mpr ⟨_, hone, cell_mem_cellNames hbound _⟩
  -- First the row is found, then the column within it.
  have hi : i = i' := getElem?_inj_of_nodup_flatMap h (hzip hrow) (hzip hrow')
    (hpart (List.mem_of_getElem? hassignment) hbound)
    (hname ▸ hpart (List.mem_of_getElem? hassignment') hbound')
  subst hi
  rw [hrow, Option.some.injEq] at hrow'
  subst hrow'
  have hwithin : (row.flatMap (cellNames (some i))).Nodup :=
    (List.nodup_flatMap.mp h).1 (row, i) (List.mem_of_getElem? (hzip hrow))
  exact ⟨rfl, getElem?_inj_of_nodup_flatMap hwithin hassignment hassignment'
    (cell_mem_cellNames hbound _) (hname ▸ cell_mem_cellNames hbound' _)⟩

/-- A cell holds a name only if it is bound, for literals have no colon. -/
theorem bound_of_isName_cell {assignment : Assignment}
    (h : assignment.bound = false → Unmarked assignment.value.literal) {row : Option Nat}
    (hname : IsName (assignment.cell row)) : assignment.bound = true := by
  cases hbound : assignment.bound with
  | true => rfl
  | false =>
    rw [cell, hbound, if_neg Bool.false_ne_true] at hname
    exact absurd hname.colon_mem (h hbound).2.1

/-- A placeholder of the rows stands in one cell, and there is no other like it. -/
theorem existsUnique_place {rows : List (List Assignment)} (hnodup : (rowPlaceholders rows).Nodup)
    (hraw : ∀ row ∈ rows, ∀ assignment ∈ row, assignment.bound = false →
      Unmarked assignment.value.literal) {name : String} (h : name ∈ rowPlaceholders rows) :
    ∃! place : Nat × Nat, entryAt (cells rows) place.1 place.2 = some name := by
  obtain ⟨i, j, assignment, hat, hbound, rfl⟩ := exists_cell_of_mem_rowPlaceholders h
  refine ⟨(i, j), entryAt_cells_of hat, fun place hplace => ?_⟩
  have hcell : (entryAt rows place.1 place.2).map (cell (some place.1))
      = some (assignment.cell (some i)) := entryAt_cells rows place.1 place.2 ▸ hplace
  obtain ⟨other, hother, hsame⟩ := Option.map_eq_some_iff.mp hcell
  have hname : IsName (other.cell (some place.1)) := by
    rw [hsame]
    exact isName_cell hbound (some i)
  obtain ⟨row, hrow, hmem⟩ := Option.bind_eq_some_iff.mp hother
  have hbound' : other.bound = true := bound_of_isName_cell
    (hraw row (List.mem_of_getElem? hrow) other (List.mem_of_getElem? hmem)) hname
  obtain ⟨hi, hj⟩ := place_unique hnodup hother hat hbound' hbound hsame
  exact Prod.ext hi hj

end Assignment

/-! ## Batches -/

namespace Builder

/-- Binding rows that fit ends well, and every bound cell is then found under its name. -/
theorem bindBatch_recorded (builder : Builder) {rows : List (List Assignment)} {page : Page}
    (h : (Request.batch [] rows page).Fits) :
    (builder.bindBatch [] rows page ({} : Recorder)).trace.result = .ok () ∧
      (builder.bindBatch [] rows page ({} : Recorder)).statement.names
        = Assignment.rowPlaceholders rows ++ page.names ∧
      ∀ i j assignment, entryAt rows i j = some assignment → assignment.bound = true →
        (builder.bindBatch [] rows page ({} : Recorder)).statement.get?
            (assignment.cell (some i))
          = some ⟨assignment.value, assignment.bindType.getD .text⟩ := by
  have hnames : (Request.batch [] rows page).names builder
      = Assignment.rowPlaceholders rows ++ page.names := Request.names_batch builder [] rows page
  have hnodup : ((Request.batch [] rows page).names builder).Nodup := by
    rw [hnames]
    refine List.nodup_append.mpr ⟨h.2.2, page.nodup_names, ?_⟩
    rintro name hname other hother rfl
    exact Assignment.not_mem_page_of_mem_rowPlaceholders hname page hother
  obtain ⟨hresult, hrecorded, hfound⟩ := Request.recorded h
    (Where.accepted_of_compile (Where.compile_nil builder.policy.policy)).1 hnodup
  refine ⟨hresult, hrecorded.trans hnames, fun i j assignment hat hbound => ?_⟩
  have hbinding := hfound _ (Assignment.mem_rowBindings hat hbound)
  rw [Assignment.cell, if_pos hbound]
  exact hbinding

/-- **Every value is in its own cell.** The values of a batch that is built are read back
as one tuple for each row, all as long as the first row. Binding the batch ends well, and
then each cell holds the literal of its value, or the name under which its value is bound
with its kind. Every name that is bound for the rows stands in one cell only. -/
theorem insertRows_in_place {builder : Builder} {rows : List (List Assignment)} {sql : String}
    (hbuilt : (builder.insertRows rows).result = .ok sql)
    (hraw : ∀ row ∈ rows, ∀ assignment ∈ row, assignment.bound = false →
      Unmarked assignment.value.literal) (page : Page) :
    ∃ table values tuples,
      builder.registry.primary = .ok table ∧
      sql = "INSERT INTO " ++ table.quotedName ++ " " ++ Assignment.columnList (rows.headD [])
        ++ " VALUES " ++ values ++ ";" ∧
      readTuples values = some tuples ∧
      tuples.length = rows.length ∧
      (∀ tuple ∈ tuples, tuple.length = (rows.headD []).length) ∧
      (builder.bindBatch [] rows page ({} : Recorder)).trace.result = .ok () ∧
      (∀ i j assignment, entryAt rows i j = some assignment →
        ∃ entry, entryAt tuples i j = some entry ∧
          if assignment.bound then
            IsName entry ∧
              (builder.bindBatch [] rows page ({} : Recorder)).statement.get? entry
                = some ⟨assignment.value, assignment.bindType.getD .text⟩
          else entry = assignment.value.literal) ∧
      ∀ name ∈ (builder.bindBatch [] rows page ({} : Recorder)).statement.names,
        name ≠ Placeholder.start → name ≠ Placeholder.limit →
          ∃! place : Nat × Nat, entryAt tuples place.1 place.2 = some name := by
  obtain ⟨hfirst, hcheck, table, htable, hsql⟩ := insertRows_eq_ok_iff.mp hbuilt
  obtain ⟨hcolumns, hnodup⟩ := checkRows_eq_ok_iff.mp hcheck
  have hne : rows ≠ [] := by
    rintro rfl
    exact hfirst rfl
  have hlength : ∀ row ∈ rows, row.length = (rows.headD []).length := by
    intro row hrow
    have hsame := congrArg List.length (hcolumns row hrow)
    unfold Assignment.columns at hsame
    rwa [List.length_map, List.length_map] at hsame
  have hrows : ∀ row ∈ rows, row ≠ [] := by
    intro row hrow
    rw [← List.length_pos_iff, hlength row hrow, List.length_pos_iff]
    exact hfirst
  obtain ⟨hresult, hnames, hfound⟩ := builder.bindBatch_recorded
    (show (Request.batch [] rows page).Fits from ⟨hne, hcolumns, hnodup⟩)
  refine ⟨table, Assignment.tuples rows, Assignment.cells rows, htable, hsql.symm,
    Assignment.readTuples_tuples hne hrows hraw, ?_, ?_, hresult, ?_, ?_⟩
  · unfold Assignment.cells
    rw [List.length_map, List.length_zipIdx]
  · intro tuple htuple
    obtain ⟨entry, hentry, rfl⟩ := List.mem_map.mp htuple
    rw [List.length_map]
    exact hlength entry.1 (List.fst_mem_of_mem_zipIdx hentry)
  · intro i j assignment hat
    refine ⟨assignment.cell (some i), Assignment.entryAt_cells_of hat, ?_⟩
    cases hbound : assignment.bound with
    | true => exact ⟨Assignment.isName_cell hbound (some i), hfound i j assignment hat hbound⟩
    | false => rw [Assignment.cell, hbound, if_neg Bool.false_ne_true, if_neg Bool.false_ne_true]
  · intro name hname hstart hlimit
    rw [hnames, List.mem_append] at hname
    -- What is left of the names of the page has been excluded.
    have hmem : name ∈ Assignment.rowPlaceholders rows :=
      hname.resolve_right fun hpage => (Page.mem_names hpage).elim hstart hlimit
    exact Assignment.existsUnique_place hnodup hraw hmem

/-- Two rows that are bound in different columns. -/
def crosswise : List (List Assignment) :=
  [ [{ column := "name", value := .text "O'Hara, (Ann)" }, Assignment.raw "seen" "CURRENT_DATE"],
    [Assignment.raw "name" "DEFAULT",
      { column := "seen", value := .int 5, bindType := some .int }] ]

theorem insertRows_in_place_crosswise :
    let builder : Builder := { registry := .single "users" }
    let recorder := (builder.bindBatch [] crosswise { limit := 1 } ({} : Recorder)).statement
    (builder.insertRows crosswise).result
        = .ok "INSERT INTO `users` (name,seen) VALUES (:name0,CURRENT_DATE),(DEFAULT,:seen1);" ∧
      ∃ values tuples, readTuples values = some tuples ∧ tuples.length = 2 ∧
        (∃ entry, entryAt tuples 0 0 = some entry ∧
          recorder.get? entry = some ⟨.text "O'Hara, (Ann)", .text⟩) ∧
        entryAt tuples 0 1 = some "CURRENT_DATE" ∧
        entryAt tuples 1 0 = some "DEFAULT" ∧
        (∃ entry, entryAt tuples 1 1 = some entry ∧ recorder.get? entry = some ⟨.int 5, .int⟩) ∧
        ∃! place : Nat × Nat, entryAt tuples place.1 place.2 = some ":seen1" := by
  have hbuilt : (({ registry := .single "users" } : Builder).insertRows crosswise).result
      = .ok "INSERT INTO `users` (name,seen) VALUES (:name0,CURRENT_DATE),(DEFAULT,:seen1);" := by
    decide +kernel
  have hraw : ∀ row ∈ crosswise, ∀ assignment ∈ row, assignment.bound = false →
      Unmarked assignment.value.literal := by
    decide +kernel
  obtain ⟨-, values, tuples, -, -, hread, hlength, -, -, hcells, hplaces⟩ :=
    insertRows_in_place hbuilt hraw { limit := 1 }
  obtain ⟨ann, hann, -, hboundAnn⟩ := hcells 0 0 _ rfl
  obtain ⟨date, hdate, rfl⟩ := hcells 0 1 _ rfl
  obtain ⟨default, hdefault, rfl⟩ := hcells 1 0 _ rfl
  obtain ⟨seen, hseen, -, hboundSeen⟩ := hcells 1 1 _ rfl
  refine ⟨hbuilt, values, tuples, hread, hlength, ⟨ann, hann, hboundAnn⟩, hdate, hdefault,
    ⟨seen, hseen, hboundSeen⟩, ?_⟩
  exact hplaces ":seen1" (by decide +kernel) (by decide) (by decide)

end Builder

end BoundSql
