import BoundSql.Proofs.Agreement

/-!
# Names inside their quotes

Whoever reads a statement knows neither the names of the tables nor how long
they are. A quoted identifier is read by opening the quotes, taking a doubled
backtick for one, and stopping at the first backtick that stands alone. That a
name is made of backticks only, or ends in some, does not mislead the reader:

> `Text.readQuoted_quoted`: a quoted name is read back as that name and nothing
> behind it is touched, unless a backtick follows the closing one.

Inside a statement no backtick ever follows. A statement is laid out in
`Fragment`s, of which some are names between quotes, and after each of those
the text goes on with a blank or ends:

> `Command.names_stay_quoted`: wherever the text of a statement has the name or
> the alias of a table, reading there gives that name or alias.
-/

namespace BoundSql

/-! ## Reading a quoted identifier -/

namespace Text

/-- Reads the inside of a quoted identifier up to the backtick that closes it: what is
spelled there, and what is left. -/
def readInside : List Char → Option (List Char × List Char)
  | [] => none
  | '\x60' :: '\x60' :: rest =>
    (readInside rest).map fun (name, after) => (backtick :: name, after)
  | '\x60' :: rest => some ([], rest)
  | c :: rest => (readInside rest).map fun (name, after) => (c :: name, after)

/-- Reads a quoted identifier at the start of a text: its name, and what is left. -/
def readQuoted (text : String) : Option (String × String) :=
  match text.toList with
  | '\x60' :: rest =>
    (readInside rest).map fun (name, after) => (String.ofList name, String.ofList after)
  | _ => none

/-- The reader stops at a backtick that no other follows. -/
theorem readInside_close {rest : List Char} (h : rest.head? ≠ some backtick) :
    readInside (backtick :: rest) = some ([], rest) := by
  cases rest with
  | nil => rfl
  | cons c rest =>
    have hc : c ≠ '\x60' := fun hc => h (congrArg some hc)
    exact readInside.eq_3 (c :: rest) fun _ heq => hc (List.cons.inj heq).1

/-- Any character but a backtick is read as it stands. -/
theorem readInside_other {c : Char} (hc : c ≠ backtick) (rest : List Char) :
    readInside (c :: rest) = (readInside rest).map fun (name, after) => (c :: name, after) := by
  have hc' : c ≠ '\x60' := hc
  exact readInside.eq_4 c rest (fun _ heq _ => hc' heq) hc'

/-- What is written inside the quotes is read back up to the closing backtick. -/
theorem readInside_doubled : ∀ (name : List Char) {rest : List Char},
    rest.head? ≠ some backtick →
      readInside (doubled name ++ backtick :: rest) = some (name, rest) := by
  intro name
  induction name with
  | nil => intro rest h; exact readInside_close h
  | cons c name ih =>
    intro rest h
    rw [doubled]
    split
    -- A backtick of the name is read together with its double, never as the closing one.
    · next hc =>
      subst hc
      show (readInside (doubled name ++ backtick :: rest)).map _ = _
      rw [ih h]
      rfl
    · next hc =>
      rw [List.cons_append, readInside_other hc, ih h]
      rfl

/-- **Quotes hold.** A quoted name is read back and nothing behind it is touched. -/
theorem readQuoted_quoted (name : String) {rest : String}
    (h : rest.toList.head? ≠ some backtick) :
    readQuoted (quoted name ++ rest) = some (name, rest) := by
  have htext : (quoted name ++ rest).toList
      = '\x60' :: (doubled name.toList ++ backtick :: rest.toList) := by
    rw [String.toList_append, quoted, String.toList_ofList, List.append_assoc]
    rfl
  unfold readQuoted
  rw [htext]
  show (readInside (doubled name.toList ++ backtick :: rest.toList)).map _ = _
  rw [readInside_doubled _ h]
  simp only [Option.map_some, String.ofList_toList]

end Text

/-! ## Fragments -/

/-- A part of a statement: a text as it stands there, or a name between quotes. -/
inductive Fragment where
  | asIs (text : String)
  | named (name : String)
  deriving DecidableEq, Repr

namespace Fragment

/-- The text of a fragment. -/
def text : Fragment → String
  | asIs text => text
  | named name => Text.quoted name

/-- The name that a fragment has between quotes. -/
def name? : Fragment → Option String
  | asIs _ => none
  | named name => some name

/-- The text of fragments in a row. -/
def textOf (fragments : List Fragment) : String :=
  String.join (fragments.map text)

/-- The names that fragments have between quotes. -/
def namesIn (fragments : List Fragment) : List String :=
  fragments.filterMap name?

/-- A text goes on with a blank, or with the semicolon that ends a statement. -/
def GoesOn (text : String) : Prop :=
  text.toList.head? = some ' ' ∨ text.toList.head? = some ';'

instance (text : String) : Decidable (GoesOn text) :=
  inferInstanceAs (Decidable (_ ∨ _))

/-- After every name the text goes on without a backtick. -/
def Spaced : List Fragment → Prop
  | [] => True
  | asIs _ :: rest => Spaced rest
  | named _ :: rest => GoesOn (textOf rest) ∧ Spaced rest

theorem GoesOn.append {text : String} (h : GoesOn text) (other : String) :
    GoesOn (text ++ other) := by
  unfold GoesOn at h ⊢
  rw [String.toList_append, List.head?_append]
  rcases h with h | h
  · exact Or.inl (by rw [h]; rfl)
  · exact Or.inr (by rw [h]; rfl)

/-- What goes on does not begin with a backtick. -/
theorem GoesOn.no_backtick {text : String} (h : GoesOn text) :
    text.toList.head? ≠ some Text.backtick := by
  rcases h with h | h
  · rw [h]
    decide
  · rw [h]
    decide

theorem textOf_cons (fragment : Fragment) (rest : List Fragment) :
    textOf (fragment :: rest) = fragment.text ++ textOf rest := by
  unfold textOf
  rw [List.map_cons, String.join_cons]

theorem textOf_append (front back : List Fragment) :
    textOf (front ++ back) = textOf front ++ textOf back := by
  unfold textOf
  rw [List.map_append, String.join_append]

/-- Behind any fragments the rest of a spaced row is spaced. -/
theorem Spaced.of_append : ∀ {front back : List Fragment},
    Spaced (front ++ back) → Spaced back := by
  intro front
  induction front with
  | nil => intro back h; exact h
  | cons first front ih =>
    intro back h
    cases first with
    | asIs text => exact ih h
    | named name => exact ih h.2

/-- **Reading in place.** At each name of a spaced row the reader finds that name, and goes on
where the text behind it does. -/
theorem Spaced.reads {front back : List Fragment} {name : String}
    (h : Spaced (front ++ named name :: back)) :
    Text.readQuoted (textOf (named name :: back)) = some (name, textOf back) ∧
      GoesOn (textOf back) := by
  obtain ⟨hgoes, -⟩ := Spaced.of_append h
  refine ⟨?_, hgoes⟩
  rw [textOf_cons]
  exact Text.readQuoted_quoted name hgoes.no_backtick

theorem GoesOn.asIs {text : String} (h : GoesOn text) (rest : List Fragment) :
    GoesOn (textOf (asIs text :: rest)) := by
  rw [textOf_cons]
  exact h.append _

/-- A name with a text behind it that goes on. -/
theorem Spaced.named_asIs {text : String} {rest : List Fragment} (name : String)
    (htext : GoesOn text) (h : Spaced rest) : Spaced (named name :: asIs text :: rest) :=
  ⟨htext.asIs rest, h⟩

end Fragment

open Fragment

/-! ## Tables in fragments -/

/-- The join of a table, laid out. -/
def Table.joinLayout (tableAlias : String) (table : Table) : List Fragment :=
  [ asIs " JOIN ", named table.name, asIs " AS ", named tableAlias,
    asIs (" ON " ++ table.condition) ]

/-- A join is the text of its layout. -/
theorem Table.textOf_joinLayout {tableAlias joined : String} {table : Table}
    (h : table.join tableAlias = .ok joined) : textOf (table.joinLayout tableAlias) = joined := by
  unfold join at h
  split at h
  · cases h
  · cases h
    simp only [joinLayout, textOf, List.map_cons, List.map_nil, String.join_cons, String.join_nil,
      Fragment.text, aliased, quotedName, String.append_empty, String.append_assoc]

namespace Registry

/-- The selection of columns from all tables, laid out. -/
def selection (registry : Registry) (columns : String) : List Fragment :=
  match registry.tables.entries with
  | [] => []
  | (tableAlias, table) :: joined =>
    asIs ("SELECT " ++ columns ++ " FROM ") :: named table.name :: asIs " AS " :: named tableAlias
      :: joined.flatMap fun (tableAlias, table) => table.joinLayout tableAlias

/-- A keyword and the primary table, laid out. -/
def target (registry : Registry) (keyword : String) : List Fragment :=
  match registry.tables.entries with
  | [] => []
  | (_, table) :: _ => [asIs keyword, named table.name]

/-- The names and aliases of all tables, in the order in which a selection has them. -/
def identifiers (registry : Registry) : List String :=
  registry.tables.entries.flatMap fun (tableAlias, table) => [table.name, tableAlias]

variable {registry : Registry}

/-- Each join has the name of its table and then the alias. -/
theorem namesIn_joined : ∀ joined : List (String × Table),
    namesIn (joined.flatMap fun (tableAlias, table) => table.joinLayout tableAlias)
      = joined.flatMap fun (tableAlias, table) => [table.name, tableAlias] := by
  intro joined
  induction joined with
  | nil => rfl
  | cons entry rest ih =>
    rw [List.flatMap_cons, List.flatMap_cons, ← ih]
    exact List.filterMap_append

/-- A selection has the names and aliases of all tables between quotes. -/
theorem namesIn_selection (registry : Registry) (columns : String) :
    namesIn (registry.selection columns) = registry.identifiers := by
  unfold selection identifiers
  split
  · next hentries => rw [hentries]; rfl
  · next tableAlias table joined hentries =>
    rw [hentries, List.flatMap_cons, ← namesIn_joined]
    rfl

theorem namesIn_target (registry : Registry) (keyword : String) :
    namesIn (registry.target keyword) = registry.primaryTexts := by
  unfold target primaryTexts
  cases registry.tables.entries with
  | nil => rfl
  | cons entry rest => rfl

/-- The joins of a selection are the texts of their layouts. -/
theorem textOf_joined {joined : List (String × Table)} {joins : List String}
    (h : (joined.mapM fun (tableAlias, table) => table.join tableAlias) = .ok joins) :
    textOf (joined.flatMap fun (tableAlias, table) => table.joinLayout tableAlias)
      = String.join joins := by
  rw [mapM_eq_ok_iff] at h
  induction h with
  | nil => rfl
  | cons hjoin _ ih =>
    rw [List.flatMap_cons, textOf_append, ih, String.join_cons, Table.textOf_joinLayout hjoin]

/-- A selection is the text of its layout. -/
theorem textOf_selection {columns text : String} (h : registry.selectFrom columns = .ok text) :
    textOf (registry.selection columns) = text := by
  unfold selectFrom at h
  unfold selection
  rcases hentries : registry.tables.entries with _ | ⟨⟨tableAlias, table⟩, joined⟩
  · rw [hentries] at h
    cases h
  · rw [hentries] at h
    obtain ⟨joins, hjoins, h⟩ := bind_eq_ok_iff.mp h
    cases h
    dsimp only
    rw [textOf_cons, textOf_cons, textOf_cons, textOf_cons, textOf_joined hjoins]
    simp only [Fragment.text, Table.aliased, Table.quotedName, String.append_assoc]

theorem textOf_target {table : Table} (h : registry.primary = .ok table) (keyword : String) :
    textOf (registry.target keyword) = keyword ++ table.quotedName := by
  unfold primary at h
  unfold target
  rcases hentries : registry.tables.entries with _ | ⟨⟨_, _⟩, _⟩
  · rw [hentries] at h
    cases h
  · rw [hentries] at h
    cases h
    show textOf [asIs keyword, named table.name] = _
    rw [textOf_cons, textOf_cons]
    exact congrArg _ String.append_empty

/-- Behind the name and the alias of a join there is a blank. -/
theorem spaced_joined {rest : List Fragment} (h : Spaced rest) :
    ∀ joined : List (String × Table),
      Spaced ((joined.flatMap fun (tableAlias, table) => table.joinLayout tableAlias) ++ rest) := by
  intro joined
  induction joined with
  | nil => exact h
  | cons entry joined ih =>
    obtain ⟨tableAlias, table⟩ := entry
    have has : GoesOn " AS " := by decide
    have hon : GoesOn (" ON " ++ table.condition) := GoesOn.append (by decide) _
    exact Spaced.named_asIs table.name has (Spaced.named_asIs tableAlias hon ih)

/-- Whatever follows a selection, its names are told from what follows them. -/
theorem spaced_selection {tail : String} (h : GoesOn tail) (registry : Registry)
    (columns : String) : Spaced (registry.selection columns ++ [asIs tail]) := by
  unfold selection
  split
  · trivial
  · next tableAlias table joined _ =>
    have has : GoesOn " AS " := by decide
    have htail : Spaced [asIs tail] := trivial
    refine Spaced.named_asIs table.name has ⟨?_, spaced_joined htail joined⟩
    -- The alias of the primary table stands before the first join, or before the rest.
    cases joined with
    | nil => exact h.asIs []
    | cons entry joined =>
      have hjoin : GoesOn " JOIN " := by decide
      exact hjoin.asIs _

theorem spaced_target {tail : String} (h : GoesOn tail) (registry : Registry) (keyword : String) :
    Spaced (registry.target keyword ++ [asIs tail]) := by
  unfold target
  split
  · trivial
  · next tableAlias table joined _ =>
    have hend : Spaced [] := trivial
    exact Spaced.named_asIs table.name h hend

end Registry

/-! ## What follows the tables -/

/-- A part that may be missing, before one that goes on. -/
theorem Fragment.GoesOn.of_optional {text rest : String} (htext : text = "" ∨ GoesOn text)
    (hrest : GoesOn rest) : GoesOn (text ++ rest) := by
  rcases htext with rfl | htext
  · rwa [String.empty_append]
  · exact htext.append rest

/-- A clause is missing or starts with a blank. -/
theorem Where.optional_sql {policy : Policy} {criteria : List Criterion} {clause : Where}
    (h : compile policy criteria = .ok clause) : clause.sql = "" ∨ GoesOn clause.sql := by
  by_cases hne : criteria = []
  · subst hne
    rw [compile_nil] at h
    cases h
    exact Or.inl rfl
  · obtain ⟨-, rfl⟩ := (compile_eq_ok_iff hne).mp h
    have hwhere : GoesOn " WHERE " := by decide
    refine Or.inr ?_
    show GoesOn (Layout.ofPlans (planned policy criteria)).clause
    rw [Layout.clause_ofPlans hne]
    exact hwhere.append _

/-- An order is missing or begins with a blank. -/
theorem optional_orderBy (order : Option String) : orderBy order = "" ∨ GoesOn (orderBy order) := by
  have hkeyword : GoesOn " ORDER BY " := by decide
  cases order with
  | none => exact Or.inl rfl
  | some order =>
    unfold orderBy
    dsimp only
    split
    · exact Or.inl rfl
    · exact Or.inr (hkeyword.append order)

theorem Page.optional_clause (page : Page) : page.clause = "" ∨ GoesOn page.clause := by
  have hkeyword : GoesOn " LIMIT " := by decide
  unfold clause
  split
  · exact Or.inr ((hkeyword.append _).append _ |>.append _)
  · split
    · exact Or.inl rfl
    · exact Or.inr (hkeyword.append _)

/-! ## Statements of every kind -/

/-- A statement of any kind: a query, or the insertion of several rows. -/
inductive Command where
  | ofQuery (query : Query)
  | insertRows (rows : List (List Assignment))

namespace Command

/-- Builds the text of a statement. -/
def build (builder : Builder) : Command → Trace String
  | ofQuery query => query.build builder
  | insertRows rows => builder.insertRows rows

/-- A statement up to the last of its tables, laid out. -/
def heading (registry : Registry) : Command → List Fragment
  | ofQuery (.select _ projection _ _) => registry.selection projection.sql
  | ofQuery (.count _) => registry.selection "COUNT(*)"
  | ofQuery (.update _ _ _) => registry.target "UPDATE "
  | ofQuery (.delete _ _) => registry.target "DELETE FROM "
  | ofQuery (.insert _) => registry.target "INSERT INTO "
  | insertRows _ => registry.target "INSERT INTO "

/-- The names and aliases that a statement has: those of all tables where it selects, and
otherwise the name of the primary table. -/
def identifiers (registry : Registry) : Command → List String
  | ofQuery (.select _ _ _ _) => registry.identifiers
  | ofQuery (.count _) => registry.identifiers
  | _ => registry.primaryTexts

/-- The heading of a statement has just its identifiers between quotes. -/
theorem namesIn_heading (registry : Registry) (command : Command) :
    namesIn (command.heading registry) = command.identifiers registry := by
  cases command with
  | ofQuery query =>
    cases query with
    | select => exact registry.namesIn_selection _
    | count => exact registry.namesIn_selection _
    | update => exact registry.namesIn_target _
    | delete => exact registry.namesIn_target _
    | insert => exact registry.namesIn_target _
  | insertRows rows => exact registry.namesIn_target _

/-- Whatever follows the heading of a statement, its names are told from what follows them. -/
theorem spaced_heading {tail : String} (h : GoesOn tail) (registry : Registry)
    (command : Command) : Spaced (command.heading registry ++ [asIs tail]) := by
  cases command with
  | ofQuery query =>
    cases query with
    | select => exact Registry.spaced_selection h registry _
    | count => exact Registry.spaced_selection h registry _
    | update => exact Registry.spaced_target h registry _
    | delete => exact Registry.spaced_target h registry _
    | insert => exact Registry.spaced_target h registry _
  | insertRows rows => exact Registry.spaced_target h registry _

variable {builder : Builder} {sql : String}

/-- The text of a statement is its heading and a text that goes on from there. -/
theorem exists_tail {command : Command} (h : (command.build builder).result = .ok sql) :
    ∃ tail, sql = textOf (command.heading builder.registry) ++ tail ∧ GoesOn tail := by
  have hsemicolon : GoesOn ";" := by decide
  have hblank : GoesOn " " := by decide
  have hset : GoesOn " SET " := by decide
  cases command with
  | ofQuery query =>
    cases query with
    | select criteria projection order page =>
      obtain ⟨selection, clause, hselection, hclause, rfl⟩ := Builder.select_eq_ok_iff.mp h
      refine ⟨clause.sql ++ (orderBy order ++ (page.clause ++ ";")), ?_, ?_⟩
      · show _ = textOf (builder.registry.selection projection.sql) ++ _
        rw [Registry.textOf_selection hselection]
        simp only [String.append_assoc]
      · exact .of_optional (Where.optional_sql hclause) (.of_optional (optional_orderBy order)
          (.of_optional page.optional_clause hsemicolon))
    | count criteria =>
      obtain ⟨selection, clause, hselection, hclause, rfl⟩ := Builder.count_eq_ok_iff.mp h
      refine ⟨clause.sql ++ ";", ?_, .of_optional (Where.optional_sql hclause) hsemicolon⟩
      show _ = textOf (builder.registry.selection "COUNT(*)") ++ _
      rw [Registry.textOf_selection hselection, String.append_assoc]
    | update criteria assignments page =>
      obtain ⟨-, table, clause, htable, -, -, rfl⟩ := Builder.update_eq_ok_iff.mp h
      refine ⟨" SET " ++ (Assignment.settings assignments ++ (clause.sql ++ (page.clause ++ ";"))),
        ?_, hset.append _⟩
      show _ = textOf (builder.registry.target "UPDATE ") ++ _
      rw [Registry.textOf_target htable]
      simp only [String.append_assoc]
    | delete criteria page =>
      obtain ⟨table, clause, htable, hclause, rfl⟩ := Builder.delete_eq_ok_iff.mp h
      refine ⟨clause.sql ++ (page.clause ++ ";"), ?_, .of_optional (Where.optional_sql hclause)
        (.of_optional page.optional_clause hsemicolon)⟩
      show _ = textOf (builder.registry.target "DELETE FROM ") ++ _
      rw [Registry.textOf_target htable]
      simp only [String.append_assoc]
    | insert assignments =>
      obtain ⟨-, -, table, htable, rfl⟩ := Builder.insert_eq_ok_iff.mp h
      refine ⟨" " ++ (Assignment.columnList assignments ++ (" VALUES "
        ++ (Assignment.tuple none assignments ++ ";"))), ?_, hblank.append _⟩
      show _ = textOf (builder.registry.target "INSERT INTO ") ++ _
      rw [Registry.textOf_target htable]
      simp only [String.append_assoc]
  | insertRows rows =>
    obtain ⟨-, -, table, htable, rfl⟩ := Builder.insertRows_eq_ok_iff.mp h
    refine ⟨" " ++ (Assignment.columnList (rows.headD []) ++ (" VALUES "
      ++ (Assignment.tuples rows ++ ";"))), ?_, hblank.append _⟩
    show _ = textOf (builder.registry.target "INSERT INTO ") ++ _
    rw [Registry.textOf_target htable]
    simp only [String.append_assoc]

/-- **Names stay inside their quotes.** A quoted name is read back as it is, whatever
follows but a backtick. A statement that is built has the names and aliases of its tables
in its heading, and nowhere does a reader that starts at one of them find anything but
this name or alias, or go on with anything but a blank or the final semicolon. -/
theorem names_stay_quoted :
    (∀ name rest : String, rest.toList.head? ≠ some Text.backtick →
        Text.readQuoted (Text.quoted name ++ rest) = some (name, rest)) ∧
      ∀ (builder : Builder) (command : Command) (sql : String),
        (command.build builder).result = .ok sql →
          namesIn (command.heading builder.registry) = command.identifiers builder.registry ∧
            (∃ tail, sql = textOf (command.heading builder.registry) ++ tail) ∧
            ∀ front name back,
              command.heading builder.registry = front ++ named name :: back →
                ∃ here rest, sql = textOf front ++ here ∧
                  Text.readQuoted here = some (name, rest) ∧
                  (rest.toList.head? = some ' ' ∨ rest.toList.head? = some ';') := by
  refine ⟨fun name rest h => Text.readQuoted_quoted name h, fun builder command sql h => ?_⟩
  obtain ⟨tail, rfl, htail⟩ := exists_tail h
  refine ⟨namesIn_heading _ command, ⟨tail, rfl⟩, fun front name back hsplit => ?_⟩
  have hspaced := spaced_heading htail builder.registry command
  rw [hsplit, List.append_assoc, List.cons_append] at hspaced
  obtain ⟨hreads, hgoes⟩ := hspaced.reads
  refine ⟨textOf (named name :: (back ++ [asIs tail])), textOf (back ++ [asIs tail]), ?_, hreads,
    hgoes⟩
  rw [hsplit, ← textOf_append, ← List.cons_append, ← List.append_assoc, textOf_append _ [asIs tail]]
  rfl

/-- Tables whose names and aliases are made to close their quotes and go on as a join. -/
def breakingOut : Registry :=
  .ofTables [
    ("\x60", { name := "users\x60 AS \x60u" }),
    ("\x60\x60 ON", { name := "\x60", on := .ofEntries [("1", "1")] })]

theorem names_stay_quoted_breakingOut :
    let builder : Builder := { registry := breakingOut }
    let command : Command := .ofQuery (.count [])
    let first : List Fragment :=
      [asIs "SELECT COUNT(*) FROM ", named "users\x60 AS \x60u", asIs " AS ", named "\x60"]
    ("users" : String).toList.head? ≠ some Text.backtick ∧
      Text.readQuoted (Text.quoted "\x60\x60" ++ "users") = some ("\x60\x60", "users") ∧
      ∃ sql, (command.build builder).result = .ok sql ∧
        command.heading breakingOut = first ++ [asIs " JOIN "]
          ++ named "\x60" :: [asIs " AS ", named "\x60\x60 ON", asIs " ON 1 = 1"] ∧
        ∃ here rest, sql = textOf (first ++ [asIs " JOIN "]) ++ here ∧
          Text.readQuoted here = some ("\x60", rest) ∧
          (rest.toList.head? = some ' ' ∨ rest.toList.head? = some ';') := by
  obtain ⟨hquoted, hplaces⟩ := names_stay_quoted
  refine ⟨by decide, hquoted _ _ (by decide), _, rfl, rfl, ?_⟩
  obtain ⟨-, -, hreads⟩ := hplaces { registry := breakingOut } (.ofQuery (.count [])) _ rfl
  exact hreads _ _ _ rfl

end Command

end BoundSql
