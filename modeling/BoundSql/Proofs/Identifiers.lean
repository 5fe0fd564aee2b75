import BoundSql.Proofs.Collision
import BoundSql.Proofs.Quoting

/-!
# Names that identify

Whatever the column, a placeholder is a colon followed by word characters. That
there is at least one of them is another matter, for a column can consist of
backticks only, or of nothing, and no character of it is left then. A number
that is written behind the stem makes up for that, and criteria and the cells of
a batch have one. What is assigned without a row has none:

> `Command.placeholders_identify_iff`: all placeholders of a statement identify
> what is bound to them, unless an update or the insertion of one row binds a
> column of which nothing is left. There the placeholder is a bare colon.

Columns of criteria must not be blank, but nobody looks at those of assignments.
-/

namespace BoundSql

namespace Placeholder

/-- A name by which a value can be bound: a colon, then word characters, at least one. -/
def Identifies (name : String) : Prop :=
  ∃ word : List Char, name.toList = ':' :: word ∧ word ≠ [] ∧ ∀ c ∈ word, isWordChar c = true

/-- Nothing is left of a column in its stem, for it has no characters but backticks. -/
def Stemless (column : String) : Prop := ∀ c ∈ column.toList, c = Text.backtick

instance (column : String) : Decidable (Stemless column) :=
  List.decidableBAll _ _

/-! ## Which names identify -/

theorem Identifies.isName {name : String} (h : Identifies name) : IsName name := by
  obtain ⟨word, hname, -, hword⟩ := h
  exact ⟨word, hname, hword⟩

/-- A name of the library identifies unless it is a bare colon. -/
theorem IsName.identifies_iff {name : String} (h : IsName name) :
    Identifies name ↔ name ≠ ":" := by
  obtain ⟨word, hname, hword⟩ := h
  constructor
  · intro hidentifies
    obtain ⟨other, hother, hne, -⟩ := hidentifies
    rintro rfl
    exact hne (List.cons.inj hother).2.symm
  · intro hbare
    refine ⟨word, hname, fun hnil => hbare ?_, hword⟩
    rw [← String.toList_inj, hname, hnil]
    rfl

/-- A digit at the end is a word character behind the colon. -/
theorem IsName.identifies_of_endsInDigit {name : String} (h : IsName name)
    (hdigit : EndsInDigit name) : Identifies name := by
  refine h.identifies_iff.mpr fun hbare => ?_
  -- The last character of a bare colon is the colon, which is no digit.
  subst hbare
  obtain ⟨c, hlast, hdigit⟩ := hdigit
  cases hlast
  cases hdigit

/-- The stem of a column is empty if there is nothing in the column but backticks. -/
theorem stem_eq_empty_iff {column : String} : stem column = "" ↔ Stemless column := by
  rw [stem, ← String.toList_inj, String.toList_ofList]
  show _ = [] ↔ _
  rw [List.map_eq_nil_iff, List.filter_eq_nil_iff]
  exact forall₂_congr fun c _ => by simp

/-- Without a row the stem is all there is. -/
theorem identifies_ofAssignment_none_iff {column : String} :
    Identifies (ofAssignment column none) ↔ ¬ Stemless column := by
  rw [(isName_ofAssignment column none).identifies_iff, ← stem_eq_empty_iff, not_iff_not]
  show ":" ++ stem column = ":" ↔ stem column = ""
  constructor
  · intro h
    have hchars := congrArg String.toList h
    rw [String.toList_append] at hchars
    exact String.toList_inj.mp (List.cons.inj hchars).2
  · intro h
    rw [h]
    rfl

end Placeholder

open Placeholder

/-! ## The names of a statement -/

/-- The slots of a clause are those of its plans, so their names end in a digit. -/
theorem isName_of_mem_clauseSlots {policy : Policy} {criteria : List Criterion} {name : String}
    (h : name ∈ (clauseSlots policy criteria).map Binding.name) :
    IsName name ∧ EndsInDigit name := by
  have hperm := (perm_clauseSlots policy criteria).map Binding.name
  rw [List.map_flatMap] at hperm
  exact planned_names (hperm.mem_iff.mp h)

/-- The names of a page identify, as they have letters. -/
theorem Page.identifies_of_mem_names {page : Page} {name : String} (h : name ∈ page.names) :
    Identifies name := by
  rcases mem_names h with rfl | rfl
  · exact isName_start.identifies_iff.mpr (by decide)
  · exact isName_limit.identifies_iff.mpr (by decide)

namespace Assignment

theorem isName_of_mem_placeholders {row : Option Nat} {assignments : List Assignment}
    {name : String} (h : name ∈ placeholders row assignments) : IsName name := by
  obtain ⟨assignment, -, rfl⟩ := List.mem_map.mp h
  exact isName_ofAssignment assignment.column row

/-- A placeholder in a batch identifies, since the number of the row is there at least. -/
theorem identifies_of_mem_rowPlaceholders {rows : List (List Assignment)} {name : String}
    (h : name ∈ rowPlaceholders rows) : Identifies name := by
  obtain ⟨entry, -, hname⟩ := List.mem_flatMap.mp h
  exact (isName_of_mem_placeholders hname).identifies_of_endsInDigit
    (endsInDigit_of_mem_rowPlaceholders h)

/-- Of assignments without a row, those that are bound have to leave a stem. -/
theorem identify_placeholders_iff {assignments : List Assignment} :
    (∀ name ∈ placeholders none assignments, Identifies name) ↔
      ∀ assignment ∈ assignments, assignment.bound = true → ¬ Stemless assignment.column := by
  unfold placeholders
  rw [List.forall_mem_map, List.forall_mem_filter]
  exact forall₃_congr fun _ _ _ => identifies_ofAssignment_none_iff

/-- The values of a batch show the placeholders of the bound cells, row by row. -/
theorem shows_tuples {rows : List (List Assignment)}
    (h : ∀ row ∈ rows, ∀ assignment ∈ row, ∀ text ∈ assignment.texts, Silent text) :
    Shows (tuples rows) (rowPlaceholders rows) := by
  unfold tuples rowPlaceholders
  refine shows_intercalate separates_comma _ _ rows.zipIdx fun entry hentry => ?_
  exact shows_tuple (h entry.1 (List.fst_mem_of_mem_zipIdx hentry)) (some entry.2)

end Assignment

/-! ## Statements of every kind -/

namespace Command

/-- The placeholders of a statement, in the order of its text. -/
def placeholders (builder : Builder) : Command → List String
  | ofQuery query => (query.emitted builder).map Binding.name
  | insertRows rows => Assignment.rowPlaceholders rows

/-- The assignments of a statement whose placeholders carry no row. -/
def unnumbered : Command → List Assignment
  | ofQuery query => query.assignments
  | insertRows _ => []

/-- What a caller has written into the text of a statement. -/
def texts (builder : Builder) : Command → List String
  | ofQuery query => query.texts builder
  | insertRows rows =>
    builder.registry.primaryTexts ++ rows.flatMap fun row => row.flatMap Assignment.texts

variable {builder : Builder} {command : Command} {sql : String}

/-- The tokens of a statement are its placeholders. -/
theorem scan_eq_placeholders (hbuilt : (command.build builder).result = .ok sql)
    (htexts : ∀ text ∈ command.texts builder, Silent text) :
    scan sql.toList = command.placeholders builder := by
  cases command with
  | ofQuery query => exact Query.scan_eq hbuilt htexts
  | insertRows rows =>
    obtain ⟨hne, -, table, htable, rfl⟩ := Builder.insertRows_eq_ok_iff.mp hbuilt
    have hinsert : Silent "INSERT INTO " := by decide
    have hvalues : Silent " VALUES " := by decide
    have hend : Separates ";" := by decide
    have hname : Silent table.quotedName := Registry.silent_primary htable
      fun text htext => htexts text (List.mem_append_left _ htext)
    have hrows : ∀ row ∈ rows, ∀ assignment ∈ row, ∀ text ∈ assignment.texts, Silent text := by
      intro row hrow assignment hassignment text htext
      refine htexts text (List.mem_append_right _ (List.mem_flatMap.mpr ⟨row, hrow, ?_⟩))
      exact List.mem_flatMap.mpr ⟨assignment, hassignment, htext⟩
    -- The columns that are listed are those of the first row alone.
    have hcolumns : Silent (Assignment.columnList (rows.headD [])) := by
      cases rows with
      | nil => exact absurd rfl hne
      | cons first rest => exact Assignment.silent_columnList (hrows first List.mem_cons_self)
    exact ((((((hinsert.append hname).append separates_blank.1).append hcolumns).append
      hvalues).append_shows (Assignment.shows_tuples hrows)).close hend).scan_eq

/-- A name of a query is that of an assignment, or it identifies in any case. -/
theorem name_cases {query : Query} {name : String}
    (h : name ∈ (query.emitted builder).map Binding.name) :
    name ∈ Assignment.placeholders none query.assignments ∨ Identifies name := by
  rw [Query.names_emitted, List.mem_append, List.mem_append] at h
  rcases h with hassigned | hslot | hpage
  · exact Or.inl hassigned
  · obtain ⟨hname, hdigit⟩ := isName_of_mem_clauseSlots hslot
    exact Or.inr (hname.identifies_of_endsInDigit hdigit)
  · exact Or.inr (Page.identifies_of_mem_names hpage)

theorem isName_of_mem_placeholders {name : String} (h : name ∈ command.placeholders builder) :
    IsName name := by
  cases command with
  | ofQuery query =>
    rcases name_cases h with hassigned | hidentifies
    · exact Assignment.isName_of_mem_placeholders hassigned
    · exact hidentifies.isName
  | insertRows rows => exact (Assignment.identifies_of_mem_rowPlaceholders h).isName

/-- The placeholders of a statement identify where those without a row do. -/
theorem identify_iff_unnumbered (builder : Builder) (command : Command) :
    (∀ name ∈ command.placeholders builder, Identifies name) ↔
      ∀ name ∈ Assignment.placeholders none command.unnumbered, Identifies name := by
  cases command with
  | ofQuery query =>
    constructor
    · intro h name hname
      have hemitted : name ∈ (query.emitted builder).map Binding.name := by
        rw [Query.names_emitted]
        exact List.mem_append_left _ hname
      exact h name hemitted
    · intro h name hname
      exact (name_cases hname).elim (h name) id
  | insertRows rows =>
    refine iff_of_true (fun name hname => ?_) fun name hname => (List.not_mem_nil hname).elim
    exact Assignment.identifies_of_mem_rowPlaceholders hname

/-- **Placeholders identify** what is bound to them. Each is a colon with word characters
behind it, and there is at least one of these in all of them exactly when no column is
bound without a row of which nothing is left. In the text of a statement that is built,
and into which no colon was written by the caller, there are no other placeholders. -/
theorem placeholders_identify_iff (builder : Builder) (command : Command) :
    (∀ name ∈ command.placeholders builder, IsName name) ∧
      ((∀ name ∈ command.placeholders builder, Identifies name) ↔
        ∀ assignment ∈ command.unnumbered, assignment.bound = true →
          ¬ Stemless assignment.column) ∧
      ∀ sql, (command.build builder).result = .ok sql →
        (∀ text ∈ command.texts builder, Silent text) →
          scan sql.toList = command.placeholders builder := by
  refine ⟨fun name hname => isName_of_mem_placeholders hname, ?_,
    fun sql hbuilt htexts => scan_eq_placeholders hbuilt htexts⟩
  exact (identify_iff_unnumbered builder command).trans Assignment.identify_placeholders_iff

/-- An update of a column whose only character is replaced, under a criterion on a column
that consists of a backtick. -/
def backticked : Command :=
  .ofQuery (.update [Criterion.equals "`" (.int 1)]
    [{ column := "`é`", value := .int 2 }] { limit := 3 })

theorem placeholders_identify_iff_backticked :
    let builder : Builder := { registry := .single "users" }
    let sql := "UPDATE `users` SET `é` = :_ WHERE ` = :1 LIMIT :limit;"
    (backticked.build builder).result = .ok sql ∧
      scan sql.toList = [":_", ":1", ":limit"] ∧
      ∀ name ∈ scan sql.toList, Identifies name := by
  intro builder sql
  have hbuilt : (backticked.build builder).result = .ok sql := by decide +kernel
  have htexts : ∀ text ∈ backticked.texts builder, Silent text := by decide +kernel
  obtain ⟨-, hidentify, hscan⟩ := placeholders_identify_iff builder backticked
  rw [hscan sql hbuilt htexts]
  exact ⟨hbuilt, rfl, hidentify.mpr (by decide +kernel)⟩

/-- The insertion of a column without a name is built, and its placeholder is a bare colon. -/
theorem insert_bare_colon :
    let builder : Builder := { registry := .single "users" }
    let command : Command := .ofQuery (.insert [{ column := "", value := .int 1 }])
    (command.build builder).result = .ok "INSERT INTO `users` () VALUES (:);" ∧
      command.placeholders builder = [":"] ∧ ¬ Identifies ":" := by
  refine ⟨by decide +kernel, rfl, fun h => ?_⟩
  exact h.isName.identifies_iff.mp h rfl

end Command

end BoundSql
