import BoundSql.Proofs.Batch
import BoundSql.Proofs.Connective
import Mathlib.Algebra.GroupWithZero.Nat

/-!
# Tuples as wide as the columns

Behind VALUES every row is to have one entry for each column. A placeholder is
one entry, and so is the literal of a scalar whose text has no comma. A list that
is not bound is written as its items with commas between them, however deep, and
its `Value.width` says how many entries that makes:

> `Insertion.tuples_fit`: an insertion has one tuple for each row, and a tuple
> has as many entries as there are columns exactly when each of the values that
> are written into it has width one. So it is where none of them is a list.

What a reader finds in a tuple is the `spread` of its cells, one after the other.
-/

namespace BoundSql

open Placeholder

/-- Numbers of at least one add up to how many they are only where each of them is one. -/
theorem sum_eq_length_iff : ∀ {ns : List Nat}, (∀ n ∈ ns, 1 ≤ n) →
    ns.length ≤ ns.sum ∧ (ns.sum = ns.length ↔ ∀ n ∈ ns, n = 1) := by
  intro ns
  induction ns with
  | nil => intro _; exact ⟨Nat.le_refl 0, iff_of_true rfl nofun⟩
  | cons n ns ih =>
    intro h
    obtain ⟨hn, hns⟩ := List.forall_mem_cons.mp h
    obtain ⟨hle, hiff⟩ := ih hns
    rw [List.sum_cons, List.length_cons, List.forall_mem_cons, ← hiff]
    omega

/-! ## Literals -/

namespace Value

mutual

/-- The number of entries that the literal of a value makes where commas count: one for
each scalar in it, however deep, and one for each list in it that is empty. -/
def width : Value → Nat
  | list items => max 1 (itemsWidth items)
  | _ => 1

/-- The entries of the items of a list together. -/
def itemsWidth : List Value → Nat
  | [] => 0
  | item :: rest => item.width + itemsWidth rest

end

mutual

/-- The entries over which the literal of a value is spread. -/
def spread : Value → List String
  | list items => if items.isEmpty then [""] else (itemSpreads items).flatten
  | value => [value.literal]

/-- The entries of each item of a list. -/
def itemSpreads : List Value → List (List String)
  | [] => []
  | item :: rest => item.spread :: itemSpreads rest

end

theorem itemSpreads_eq_map (items : List Value) : itemSpreads items = items.map spread := by
  induction items with
  | nil => rfl
  | cons item rest ih => rw [itemSpreads, ih, List.map_cons]

/-- A literal makes at least one entry. -/
theorem spread_ne_nil (value : Value) : value.spread ≠ [] := by
  cases value with
  | list items =>
    cases items with
    | nil => exact List.cons_ne_nil _ _
    | cons item rest =>
      rw [spread, List.isEmpty_cons, if_neg Bool.false_ne_true, itemSpreads, List.flatten_cons]
      exact List.append_ne_nil_of_left_ne_nil (spread_ne_nil item) _
  | _ => exact List.cons_ne_nil _ _

mutual

/-- **A literal is its entries** with commas between them. -/
theorem literal_eq_spread (value : Value) : value.literal = ",".intercalate value.spread := by
  cases value with
  | list items =>
    rw [literal, literals_eq_spreads items]
    cases items with
    | nil => rfl
    | cons item rest =>
      -- An item is never spread over nothing, or the comma after it would be one too many.
      rw [spread, List.isEmpty_cons, if_neg Bool.false_ne_true, intercalate_map_intercalate]
      intro row hrow
      rw [itemSpreads_eq_map] at hrow
      obtain ⟨other, -, rfl⟩ := List.mem_map.mp hrow
      exact spread_ne_nil other
  | _ => exact (String.intercalate_singleton).symm

theorem literals_eq_spreads (items : List Value) :
    literals items = (itemSpreads items).map ",".intercalate := by
  cases items with
  | nil => rfl
  | cons item rest =>
    rw [literals, itemSpreads, List.map_cons, literal_eq_spread item, literals_eq_spreads rest]

end

mutual

/-- A value is spread over as many entries as it is wide. -/
theorem length_spread (value : Value) : value.spread.length = value.width := by
  cases value with
  | list items =>
    rw [spread, width, ← length_itemSpreads items]
    cases items with
    | nil => rfl
    | cons item rest =>
      -- The maximum is there for the empty list alone; here an item makes an entry already.
      have hne : (itemSpreads (item :: rest)).flatten ≠ [] := spread_ne_nil (.list (item :: rest))
      rw [List.isEmpty_cons, if_neg Bool.false_ne_true]
      exact (Nat.max_eq_right (List.length_pos_iff.mpr hne)).symm
  | _ => rfl

theorem length_itemSpreads (items : List Value) :
    (itemSpreads items).flatten.length = itemsWidth items := by
  cases items with
  | nil => rfl
  | cons item rest =>
    rw [itemSpreads, itemsWidth, List.flatten_cons, List.length_append, length_spread item,
      length_itemSpreads rest]

end

/-- Even the literal of an empty list takes up an entry. -/
theorem one_le_width (value : Value) : 1 ≤ value.width := by
  rw [← length_spread]
  exact List.length_pos_iff.mpr value.spread_ne_nil

/-- What is no list makes one entry. -/
theorem width_of_scalar {value : Value} (h : value.isList = false) : value.width = 1 := by
  cases value with
  | list items => cases h
  | _ => rfl

/-- What is spelled with plain characters has no mark of a tuple in it. -/
theorem isEntry_of_plain {text : String} (h : ∀ c ∈ text.toList, Decimal.isPlain c = true) :
    IsEntry text := by
  refine ⟨fun hc => ?_, fun hc => ?_, fun hc => ?_⟩
  · exact absurd (h _ hc) (by decide)
  · exact absurd (h _ hc) (by decide)
  · exact absurd (h _ hc) (by decide)

mutual

/-- Each entry of a literal is one entry, if the texts of the caller in it are. -/
theorem isEntry_of_mem_spread (value : Value) (h : ∀ text ∈ value.texts, IsEntry text) :
    ∀ entry ∈ value.spread, IsEntry entry := by
  cases value with
  | null => exact List.forall_mem_singleton.mpr (by decide)
  | bool b => exact List.forall_mem_singleton.mpr (by cases b <;> decide)
  | int n => exact List.forall_mem_singleton.mpr (isEntry_of_plain (Decimal.plain_toString_int _))
  | float x => exact List.forall_mem_singleton.mpr (isEntry_of_plain (Decimal.plain_text x))
  | text s => exact List.forall_mem_singleton.mpr (h s List.mem_cons_self)
  | list items =>
    intro entry hentry
    rw [spread] at hentry
    split at hentry
    -- The empty list is written as nothing, and that is an entry without marks.
    · rw [List.mem_singleton.mp hentry]
      decide
    · exact isEntry_of_mem_itemSpreads items h entry hentry

/-- Items whose texts are entries are spread over entries. -/
theorem isEntry_of_mem_itemSpreads (items : List Value)
    (h : ∀ text ∈ itemTexts items, IsEntry text) :
    ∀ entry ∈ (itemSpreads items).flatten, IsEntry entry := by
  cases items with
  | nil => exact nofun
  | cons item rest =>
    rw [itemTexts, List.forall_mem_append] at h
    rw [itemSpreads, List.flatten_cons, List.forall_mem_append]
    exact ⟨isEntry_of_mem_spread item h.1, isEntry_of_mem_itemSpreads rest h.2⟩

end

end Value

/-! ## Cells and tuples -/

namespace Assignment

/-- The number of entries that the value of an assignment makes in its tuple. -/
def width (assignment : Assignment) : Nat :=
  if assignment.bound then 1 else assignment.value.width

/-- The entries over which a cell is spread. -/
def spread (row : Option Nat) (assignment : Assignment) : List String :=
  if assignment.bound then [Placeholder.ofAssignment assignment.column row]
  else assignment.value.spread

theorem spread_ne_nil (row : Option Nat) (assignment : Assignment) :
    assignment.spread row ≠ [] := by
  unfold spread
  split
  · exact List.cons_ne_nil _ _
  · exact assignment.value.spread_ne_nil

/-- A cell is written as the entries over which it is spread. -/
theorem cell_eq_spread (row : Option Nat) (assignment : Assignment) :
    assignment.cell row = ",".intercalate (assignment.spread row) := by
  unfold cell spread
  split
  · exact (String.intercalate_singleton).symm
  · exact assignment.value.literal_eq_spread

/-- A cell takes up as many entries as the assignment is wide. -/
theorem length_spread (row : Option Nat) (assignment : Assignment) :
    (assignment.spread row).length = assignment.width := by
  unfold spread width
  split
  · rfl
  · exact assignment.value.length_spread

theorem one_le_width (assignment : Assignment) : 1 ≤ assignment.width := by
  unfold width
  split
  · exact Nat.le_refl 1
  · exact assignment.value.one_le_width

/-- Only what is not bound can make more entries than one. -/
theorem width_eq_one_iff (assignment : Assignment) :
    assignment.width = 1 ↔ (assignment.bound = false → assignment.value.width = 1) := by
  unfold width
  cases assignment.bound with
  | true => exact iff_of_true rfl nofun
  | false => exact ⟨fun h _ => h, fun h => h rfl⟩

/-- What a caller has written into a tuple makes no entries of its own. -/
def Listable (assignment : Assignment) : Prop :=
  IsEntry assignment.column ∧
    (assignment.bound = false → ∀ text ∈ assignment.value.texts, IsEntry text)

instance (assignment : Assignment) : Decidable assignment.Listable :=
  inferInstanceAs (Decidable (_ ∧ _))

/-- What an assignment with listable texts is spread over are entries. -/
theorem isEntry_of_mem_spread {assignment : Assignment} (h : assignment.Listable)
    (row : Option Nat) : ∀ entry ∈ assignment.spread row, IsEntry entry := by
  unfold spread
  split
  · have hname := isName_ofAssignment assignment.column row
    exact List.forall_mem_singleton.mpr ⟨hname.not_mem (by decide) rfl,
      hname.not_mem (by decide) rfl, hname.not_mem (by decide) rfl⟩
  · next hbound => exact assignment.value.isEntry_of_mem_spread (h.2 (Bool.eq_false_iff.mpr hbound))

/-- The entries of the tuple of a row. -/
def tupleSpread (row : Option Nat) (assignments : List Assignment) : List String :=
  assignments.flatMap (spread row)

/-- A tuple is written as the entries of all its cells. -/
theorem tuple_eq_spread (row : Option Nat) (assignments : List Assignment) :
    tuple row assignments = enclosed (",".intercalate (tupleSpread row assignments)) := by
  have hcells : assignments.map (cell row)
      = (assignments.map (spread row)).map ",".intercalate := by
    rw [List.map_map]
    exact List.map_congr_left fun assignment _ => cell_eq_spread row assignment
  unfold tuple enclosed tupleSpread
  rw [hcells, intercalate_map_intercalate, List.flatMap_def]
  intro entries hentries
  obtain ⟨assignment, -, rfl⟩ := List.mem_map.mp hentries
  exact spread_ne_nil row assignment

/-- A tuple has as many entries as its cells are wide, taken together. -/
theorem length_tupleSpread (row : Option Nat) (assignments : List Assignment) :
    (tupleSpread row assignments).length = (assignments.map width).sum := by
  unfold tupleSpread
  rw [List.length_flatMap]
  exact congrArg List.sum (List.map_congr_left fun assignment _ => length_spread row assignment)

end Assignment

/-! ## Reading rows -/

/-- The list of columns is read as one tuple with a column for each entry. -/
theorem Assignment.readTuples_columnList {assignments : List Assignment} (hne : assignments ≠ [])
    (h : ∀ assignment ∈ assignments, assignment.Listable) :
    readTuples (columnList assignments) = some [columns assignments] := by
  have hread := readTuples_rows (List.cons_ne_nil (columns assignments) []) (by
    refine List.forall_mem_singleton.mpr ⟨mt List.map_eq_nil_iff.mp hne, fun column hcolumn => ?_⟩
    obtain ⟨assignment, hassignment, rfl⟩ := List.mem_map.mp hcolumn
    exact (h assignment hassignment).1)
  rwa [List.map_singleton, String.intercalate_singleton] at hread

/-! ## Insertions -/

/-- The insertion of one row, or of the rows of a batch. -/
inductive Insertion where
  | single (assignments : List Assignment)
  | batch (rows : List (List Assignment))

namespace Insertion

/-- Builds the text of an insertion. -/
def build (builder : Builder) : Insertion → Trace String
  | single assignments => builder.insert assignments
  | batch rows => builder.insertRows rows

/-- The rows that are inserted. -/
def rows : Insertion → List (List Assignment)
  | single assignments => [assignments]
  | batch rows => rows

/-- The rows with the numbers that their placeholders carry, if they do. -/
def numbered : Insertion → List (Option Nat × List Assignment)
  | single assignments => [(none, assignments)]
  | batch rows => rows.zipIdx.map fun (row, index) => (some index, row)

/-- The tuples behind VALUES. -/
def values (insertion : Insertion) : String :=
  ",".intercalate (insertion.numbered.map fun (number, row) => Assignment.tuple number row)

variable {builder : Builder} {insertion : Insertion} {sql : String}

theorem map_snd_numbered (insertion : Insertion) :
    insertion.numbered.map Prod.snd = insertion.rows := by
  cases insertion with
  | single assignments => rfl
  | batch rows =>
    show (rows.zipIdx.map fun (row, index) => (some index, row)).map Prod.snd = rows
    rw [List.map_map]
    exact List.zipIdx_map_fst 0 rows

/-- A row that is numbered is one of the rows. -/
theorem mem_rows_of_mem_numbered {entry : Option Nat × List Assignment}
    (h : entry ∈ insertion.numbered) : entry.2 ∈ insertion.rows := by
  rw [← map_snd_numbered]
  exact List.mem_map.mpr ⟨entry, h, rfl⟩

/-- An insertion that is built has columns, the same in each row, and is put together of a
table, these columns and its tuples. -/
theorem parts_of_build (h : (insertion.build builder).result = .ok sql) :
    insertion.rows.headD [] ≠ [] ∧ Assignment.SameColumns insertion.rows ∧
      ∃ table, builder.registry.primary = .ok table ∧
        sql = "INSERT INTO " ++ table.quotedName ++ " "
          ++ Assignment.columnList (insertion.rows.headD []) ++ " VALUES " ++ insertion.values
          ++ ";" := by
  cases insertion with
  | single assignments =>
    obtain ⟨hne, -, table, htable, rfl⟩ := Builder.insert_eq_ok_iff.mp h
    refine ⟨hne, List.forall_mem_singleton.mpr rfl, table, htable, ?_⟩
    show _ = _ ++ ",".intercalate [Assignment.tuple none assignments] ++ ";"
    rw [String.intercalate_singleton]
    rfl
  | batch rows =>
    obtain ⟨hne, hcheck, table, htable, rfl⟩ := Builder.insertRows_eq_ok_iff.mp h
    refine ⟨hne, (Builder.checkRows_eq_ok_iff.mp hcheck).1, table, htable, ?_⟩
    unfold values numbered
    rw [List.map_map]
    rfl

/-- **The tuples of an insertion are read back** as the entries of its rows. -/
theorem readTuples_values (hne : insertion.rows ≠ []) (hrows : ∀ row ∈ insertion.rows, row ≠ [])
    (hlistable : ∀ row ∈ insertion.rows, ∀ assignment ∈ row, assignment.Listable) :
    readTuples insertion.values
      = some (insertion.numbered.map fun (number, row) => Assignment.tupleSpread number row) := by
  have hvalues : insertion.values = ",".intercalate
      ((insertion.numbered.map fun (number, row) => Assignment.tupleSpread number row).map
        fun row => enclosed (",".intercalate row)) := by
    unfold values
    rw [List.map_map]
    congr 1
    exact List.map_congr_left fun entry _ => Assignment.tuple_eq_spread entry.1 entry.2
  -- The reader wants rows, in each of them entries, and no mark inside an entry.
  rw [hvalues, readTuples_rows]
  · intro hnil
    rw [← map_snd_numbered, List.map_eq_nil_iff.mp hnil] at hne
    exact hne rfl
  · intro entries hentries
    obtain ⟨entry, hentry, rfl⟩ := List.mem_map.mp hentries
    refine ⟨fun hnil => ?_, fun text htext => ?_⟩
    · obtain ⟨assignment, hassignment⟩ := List.exists_mem_of_ne_nil _
        (hrows _ (mem_rows_of_mem_numbered hentry))
      exact Assignment.spread_ne_nil entry.1 assignment
        (List.flatMap_eq_nil_iff.mp hnil assignment hassignment)
    · obtain ⟨assignment, hassignment, htext⟩ := List.mem_flatMap.mp htext
      exact Assignment.isEntry_of_mem_spread
        (hlistable _ (mem_rows_of_mem_numbered hentry) assignment hassignment) entry.1 text htext

/-- How many entries the tuple of a row has, and when that is one for each column. -/
structure Fits (columns : List String) (row : List Assignment) (tuple : List String) : Prop where
  length_eq : tuple.length = (row.map Assignment.width).sum
  fits_iff : tuple.length = columns.length ↔
    ∀ assignment ∈ row, assignment.bound = false → assignment.value.width = 1
  of_scalars : (∀ assignment ∈ row, assignment.bound = false → assignment.value.isList = false) →
    tuple.length = columns.length

/-- The tuple of a row fits columns of the same number. -/
theorem fits_tupleSpread {columns : List String} {row : List Assignment}
    (h : row.length = columns.length) (number : Option Nat) :
    Fits columns row (Assignment.tupleSpread number row) := by
  have hlength := Assignment.length_tupleSpread number row
  have hone : ∀ n ∈ row.map Assignment.width, 1 ≤ n := by
    intro n hn
    obtain ⟨assignment, -, rfl⟩ := List.mem_map.mp hn
    exact assignment.one_le_width
  -- There are as many widths as columns, so their sum is that number only if each of them is one.
  have hiff : (Assignment.tupleSpread number row).length = columns.length ↔
      ∀ assignment ∈ row, assignment.bound = false → assignment.value.width = 1 := by
    have hsum := (sum_eq_length_iff hone).2
    rw [List.length_map, List.forall_mem_map] at hsum
    rw [hlength, ← h, hsum]
    exact forall₂_congr fun assignment _ => assignment.width_eq_one_iff
  refine ⟨hlength, hiff, fun hscalars => hiff.mpr fun assignment hassignment hbound => ?_⟩
  exact Value.width_of_scalar (hscalars assignment hassignment hbound)

/-- **Tuples fit their columns** where every value that is written makes one entry. In an
insertion that is built, and whose columns and unbound texts hold no comma and no
parenthesis, a reader finds the columns and one tuple for each row. A tuple has as many
entries as its cells make: one for each that is bound, and for each other as many as its
value is wide. So it has one for each column exactly when all that is written into it has
width one, and it does if none of that is a list. -/
theorem tuples_fit (hbuilt : (insertion.build builder).result = .ok sql)
    (hlistable : ∀ row ∈ insertion.rows, ∀ assignment ∈ row, assignment.Listable) :
    ∃ table tuples,
      builder.registry.primary = .ok table ∧
      sql = "INSERT INTO " ++ table.quotedName ++ " "
        ++ Assignment.columnList (insertion.rows.headD []) ++ " VALUES " ++ insertion.values
        ++ ";" ∧
      readTuples (Assignment.columnList (insertion.rows.headD []))
        = some [Assignment.columns (insertion.rows.headD [])] ∧
      readTuples insertion.values = some tuples ∧
      tuples.length = insertion.rows.length ∧
      List.Forall₂ (Fits (Assignment.columns (insertion.rows.headD []))) insertion.rows tuples := by
  obtain ⟨hfirst, hcolumns, table, htable, hsql⟩ := parts_of_build hbuilt
  have hlength : ∀ row ∈ insertion.rows,
      row.length = (Assignment.columns (insertion.rows.headD [])).length := by
    intro row hrow
    rw [hcolumns.length_eq hrow, Assignment.columns, List.length_map]
  obtain ⟨first, rest, hsplit⟩ : ∃ first rest, insertion.rows = first :: rest := by
    refine List.exists_cons_of_ne_nil fun hnil => ?_
    rw [hnil] at hfirst
    exact hfirst rfl
  have hhead : insertion.rows.headD [] ∈ insertion.rows := by
    rw [hsplit]
    exact List.mem_cons_self
  refine ⟨table, _, htable, hsql,
    Assignment.readTuples_columnList hfirst (hlistable _ hhead),
    readTuples_values (hsplit ▸ List.cons_ne_nil first rest)
      (fun _ hrow => hcolumns.ne_nil hfirst hrow) hlistable, ?_, ?_⟩
  · rw [List.length_map, ← map_snd_numbered, List.length_map]
  · have hfits : List.Forall₂ (Fits (Assignment.columns (insertion.rows.headD [])))
        (insertion.numbered.map Prod.snd)
        (insertion.numbered.map fun (number, row) => Assignment.tupleSpread number row) := by
      rw [List.forall₂_map_left_iff, List.forall₂_map_right_iff, List.forall₂_same]
      exact fun entry hentry =>
        fits_tupleSpread (hlength entry.2 (mem_rows_of_mem_numbered hentry)) entry.1
    rwa [map_snd_numbered] at hfits

/-- Rows in which a list is bound, a list with one scalar is written, and so is one with two. -/
def ragged : List (List Assignment) :=
  [ [{ column := "a", value := .list [.int 1, .int 2] },
      { column := "b", value := .list [.list [.text "NOW"]], bound := false }],
    [{ column := "a", value := .null, bound := false },
      { column := "b", value := .list [.int 1, .bool true], bound := false }] ]

/-- Of two rows that are equally long, the tuple of one fits the columns and that of the other is
too wide. -/
theorem tuples_fit_ragged :
    ((batch ragged).build { registry := .single "users" }).result
        = .ok "INSERT INTO `users` (a,b) VALUES (:a0,NOW),(NULL,1,1);" ∧
      (∀ row ∈ ragged, ∀ assignment ∈ row, assignment.Listable) ∧
      readTuples "(a,b)" = some [["a", "b"]] ∧
      ∃ narrow wide, readTuples (batch ragged).values = some [narrow, wide] ∧
        narrow.length = 2 ∧ wide.length ≠ 2 ∧ wide.length = 3 := by
  have hbuilt : ((batch ragged).build { registry := .single "users" }).result
      = .ok "INSERT INTO `users` (a,b) VALUES (:a0,NOW),(NULL,1,1);" := by decide +kernel
  have hlistable : ∀ row ∈ ragged, ∀ assignment ∈ row, assignment.Listable := by decide +kernel
  obtain ⟨-, tuples, -, -, hcolumns, hread, -, hfits⟩ := tuples_fit hbuilt hlistable
  cases hfits with
  | @cons _ narrow _ _ hnarrow hrest =>
    cases hrest with
    | @cons _ wide _ _ hwide hnone =>
      cases hnone
      refine ⟨hbuilt, hlistable, hcolumns, narrow, wide, hread, ?_, ?_, ?_⟩
      · exact hnarrow.fits_iff.mpr (by decide +kernel)
      · exact mt hwide.fits_iff.mp (by decide +kernel)
      · exact hwide.length_eq

/-- A list that is written makes two entries under one column. -/
theorem single_list_too_wide :
    let assignments : List Assignment :=
      [{ column := "a", value := .list [.int 1, .int 2], bound := false }]
    ((single assignments).build { registry := .single "users" }).result
        = .ok "INSERT INTO `users` (a) VALUES (1,2);" ∧
      (∀ assignment ∈ assignments, assignment.Listable) ∧
      readTuples "(a)" = some [["a"]] ∧ readTuples "(1,2)" = some [["1", "2"]] := by
  refine ⟨by decide +kernel, by decide +kernel, by decide +kernel, by decide +kernel⟩

end Insertion

end BoundSql
