import BoundSql.Proofs.Decoding
import BoundSql.Proofs.Insertions
import BoundSql.Registry.Basic

/-!
# What a run of additions leaves

A registry is filled with tables under their aliases, and a table with the pairs
on which it is joined. Both are runs of insertions into keyed lists, so what such
a run leaves is read twice here, of aliases and of left sides: each once, in the
order in which they came up first, with what came last. From it follow the primary
table, the look-up and the selection, whose one choice of a fault goes by the
order of the registry.

> `Registry.added_renders`: the registry after a run of additions, and its text.
-/

namespace BoundSql

/-! ## Tables -/

/-- How a table is made: its name and the pairs on which it is joined, in their order. -/
structure Table.Recipe where
  name : String
  pairs : List (String × String)

/-- The table that is made. -/
def Table.Recipe.table (recipe : Recipe) : Table :=
  recipe.pairs.foldl (fun table pair => table.joinedOn pair.1 pair.2) { name := recipe.name }

/-- The conditions of a table are its pairs, each left side once with its last right side. -/
theorem Table.Recipe.table_eq (recipe : Recipe) :
    recipe.table = { name := recipe.name, on := KeyedList.ofEntries recipe.pairs } := by
  -- The induction is on the pairs, with any table to start from.
  have hfold : ∀ (pairs : List (String × String)) (table : Table),
      pairs.foldl (fun table pair => table.joinedOn pair.1 pair.2) table
        = { table with on := table.on.insertAll pairs } := by
    intro pairs
    induction pairs with
    | nil =>
      intro table
      rfl
    | cons pair pairs ih =>
      intro table
      exact ih (table.joinedOn pair.1 pair.2)
  exact hfold recipe.pairs _

/-- A table may be made by joining it on its own pairs. -/
def Table.recipe (table : Table) : Recipe :=
  ⟨table.name, table.on.entries⟩

/-- A table is made again by its own recipe. -/
theorem Table.table_recipe (table : Table) : table.recipe.table = table := by
  rw [Recipe.table_eq, recipe, KeyedList.ofEntries_entries]

/-- The text of a join. -/
def Table.Recipe.joinText (tableAlias : String) (recipe : Recipe) : String :=
  " JOIN " ++ Text.quoted recipe.name ++ " AS " ++ Text.quoted tableAlias ++ " ON "
    ++ " AND ".intercalate ((settled recipe.pairs).map fun pair => pair.1 ++ " = " ++ pair.2)

/-- A table without a condition is not joined, and any other is by all its pairs. -/
theorem Table.Recipe.join_eq (tableAlias : String) (recipe : Recipe) :
    recipe.table.join tableAlias =
      if recipe.pairs.isEmpty then .error (.of (.missingJoinCondition tableAlias))
      else .ok (recipe.joinText tableAlias) := by
  have hentries : recipe.table.on.entries = settled recipe.pairs := by
    rw [table_eq]
    exact KeyedList.entries_ofEntries recipe.pairs
  have hempty : recipe.table.on.isEmpty = recipe.pairs.isEmpty := by
    rw [KeyedList.isEmpty, hentries, Bool.eq_iff_iff, List.isEmpty_iff, List.isEmpty_iff,
      settled_eq_nil_iff]
  have hname : recipe.table.name = recipe.name := by rw [table_eq]
  rw [Table.join, hempty, joinText, Table.aliased, Table.quotedName, hname, Table.condition,
    hentries]
  simp only [String.append_assoc]

namespace Registry

/-- The registry after a run of additions. -/
def added (history : List (String × Table.Recipe)) : Registry :=
  history.foldl (fun registry entry => registry.add entry.1 entry.2.table) {}

/-- Adding tables is entering them under their aliases. -/
theorem tables_added (history : List (String × Table.Recipe)) :
    (added history).tables
      = KeyedList.ofEntries (history.map fun entry => (entry.1, entry.2.table)) := by
  induction history using List.reverseRecOn with
  | nil => rfl
  | append_singleton history entry ih =>
    rw [List.map_append, List.map_singleton, KeyedList.ofEntries_concat, ← ih, added,
      List.foldl_append]
    rfl

/-- The tables stand in the order in which their aliases came first, each as it was added last. -/
theorem entries_added (history : List (String × Table.Recipe)) :
    (added history).tables.entries
      = (settled history).map fun entry => (entry.1, entry.2.table) := by
  rw [tables_added, KeyedList.entries_ofEntries, settled_map]

/-- The first of the other aliases whose table has nothing to be joined on. -/
def unjoined? (history : List (String × Table.Recipe)) : Option String :=
  ((settled history).tail.find? fun entry => entry.2.pairs.isEmpty).map Prod.fst

/-- The joins of tables stop at the first that has no condition. -/
theorem mapM_join (joined : List (String × Table.Recipe)) :
    ((joined.map fun entry => (entry.1, entry.2.table)).mapM fun (tableAlias, table) =>
        table.join tableAlias) =
      match joined.find? fun entry => entry.2.pairs.isEmpty with
      | some entry => .error (.of (.missingJoinCondition entry.1))
      | none => .ok (joined.map fun entry => entry.2.joinText entry.1) := by
  induction joined with
  | nil => rfl
  | cons entry joined ih =>
    -- The first table decides, unless it has a condition: then the first fault is that of the rest.
    rw [List.map_cons, List.mapM_cons, ih, List.find?_cons]
    dsimp only
    rw [Table.Recipe.join_eq]
    cases entry.2.pairs.isEmpty with
    | true => rfl
    | false =>
      cases joined.find? fun entry => entry.2.pairs.isEmpty <;> rfl

/-- The selection from the tables that a run leaves, of which the first is not joined. -/
theorem selectFrom_added (history : List (String × Table.Recipe)) (columns : String) :
    (added history).selectFrom columns =
      match settled history with
      | [] => .error (.of .noTables)
      | first :: joined =>
        match joined.find? fun entry => entry.2.pairs.isEmpty with
        | some entry => .error (.of (.missingJoinCondition entry.1))
        | none => .ok ("SELECT " ++ columns ++ " FROM " ++ Text.quoted first.2.name ++ " AS "
            ++ Text.quoted first.1
            ++ String.join (joined.map fun entry => entry.2.joinText entry.1)) := by
  -- The first table of what a run leaves is selected from, and only the others are joined.
  rw [selectFrom, entries_added]
  cases settled history with
  | nil => rfl
  | cons first joined =>
    rw [List.map_cons]
    dsimp only
    rw [mapM_join]
    cases joined.find? fun entry => entry.2.pairs.isEmpty with
    | some entry => rfl
    | none =>
      have hname : first.2.table.name = first.2.name := by rw [Table.Recipe.table_eq]
      simp only [Table.aliased, Table.quotedName, hname, String.append_assoc]
      rfl

/-- The table that a run leaves under an alias is the one that was added there last. -/
theorem get?_added (history : List (String × Table.Recipe)) (tableAlias : String) :
    (added history).tables.get? tableAlias
      = (lastUnder history tableAlias).map Table.Recipe.table := by
  rw [tables_added, KeyedList.get?_ofEntries, lastUnder_map]

/-- **A run of additions** leaves each alias once, in the order in which the aliases were added
first, with the table that was added under it last. The primary table is the last one under the
first alias, and a look-up finds the last one under its own. Selecting fails for want of tables
exactly if nothing was added, and for want of a condition exactly if one of the aliases after the
first has a table without pairs; the first of these in the registry is named. Otherwise its text
has the primary table and then a join for every other one, on each left side once, in the order
in which the left sides came up, with the right side that came last. -/
theorem added_renders (history : List (String × Table.Recipe)) (columns : String) :
    (added history).tables.entries
        = (settled history).map (fun entry => (entry.1, entry.2.table)) ∧
      (added history).primary
        = (match history.head?.bind fun first => lastUnder history first.1 with
          | some recipe => .ok recipe.table
          | none => .error (.of .noTables)) ∧
      (∀ tableAlias, (added history).get tableAlias
        = match lastUnder history tableAlias with
          | some recipe => .ok recipe.table
          | none => .error (.of (.unknownTable tableAlias))) ∧
      ((added history).selectFrom columns = .error (.of .noTables) ↔ history = []) ∧
      (∀ tableAlias, (added history).selectFrom columns
          = .error (.of (.missingJoinCondition tableAlias)) ↔
        unjoined? history = some tableAlias) ∧
      ∀ selection, (added history).selectFrom columns = .ok selection ↔
        unjoined? history = none ∧ ∃ first joined, settled history = first :: joined ∧
          selection = "SELECT " ++ columns ++ " FROM " ++ Text.quoted first.2.name ++ " AS "
            ++ Text.quoted first.1
            ++ String.join (joined.map fun entry => entry.2.joinText entry.1) := by
  have hselect := selectFrom_added history columns
  refine ⟨entries_added history, ?_, ?_, ?_, ?_, ?_⟩
  · rw [primary, entries_added]
    cases history with
    | nil => rfl
    | cons first rest =>
      obtain ⟨recipe, others, hlast, hsettled⟩ := exists_settled_cons first rest
      rw [hsettled, List.head?_cons, Option.bind_some, hlast]
      rfl
  · intro tableAlias
    rw [get, get?_added]
    cases lastUnder history tableAlias <;> rfl
  · rw [hselect, ← settled_eq_nil_iff]
    cases settled history with
    | nil => exact iff_of_true rfl rfl
    | cons first joined =>
      refine iff_of_false ?_ (List.cons_ne_nil first joined)
      intro h
      dsimp only at h
      split at h <;> cases h
  · intro tableAlias
    rw [hselect, unjoined?]
    cases settled history with
    | nil => exact iff_of_false nofun nofun
    | cons first joined =>
      dsimp only [List.tail_cons]
      cases joined.find? fun entry => entry.2.pairs.isEmpty with
      | none => exact iff_of_false nofun nofun
      | some entry =>
        constructor
        · intro h
          cases h
          rfl
        · intro h
          cases h
          rfl
  · intro selection
    rw [hselect, unjoined?]
    cases settled history with
    | nil =>
      refine iff_of_false nofun ?_
      rintro ⟨-, _, _, hsettled, -⟩
      cases hsettled
    | cons first joined =>
      dsimp only [List.tail_cons]
      cases joined.find? fun entry => entry.2.pairs.isEmpty with
      | some entry =>
        refine iff_of_false nofun ?_
        rintro ⟨hnone, -⟩
        cases hnone
      | none =>
        constructor
        · intro h
          exact ⟨rfl, first, joined, rfl, (Except.ok.inj h).symm⟩
        · rintro ⟨-, _, _, hsettled, rfl⟩
          cases hsettled
          rfl

/-- A primary table that is added again under its alias, and one whose pairs repeat a left side. -/
def readded : List (String × Table.Recipe) :=
  [("u", ⟨"users", []⟩), ("o", ⟨"orders", []⟩), ("u", ⟨"people", [("u.id", "u.id")]⟩),
    ("o", ⟨"sales", [("u.id", "o.user"), ("u.year", "o.year"), ("u.id", "o.owner")]⟩)]

theorem added_renders_readded :
    (added readded).selectFrom "o.total"
        = .ok ("SELECT o.total FROM \x60people\x60 AS \x60u\x60 JOIN \x60sales\x60 AS \x60o\x60"
          ++ " ON u.id = o.owner AND u.year = o.year") ∧
      (added (readded.take 3)).selectFrom "o.total"
        = .error (.of (.missingJoinCondition "o")) := by
  obtain ⟨-, -, -, -, -, htext⟩ := added_renders readded "o.total"
  obtain ⟨-, -, -, -, hmissing, -⟩ := added_renders (readded.take 3) "o.total"
  refine ⟨(htext _).mpr ⟨rfl, _, _, rfl, ?_⟩, (hmissing "o").mpr rfl⟩
  decide +kernel

end Registry

end BoundSql
