import BoundSql.Proofs.Decoding

/-!
# Criteria and rows read back from JSON

What is written as JSON is read back as it was. The parts of a criterion and of
an assignment are each read back from the member they are written as, an absent
one by being left out; an explicit null is a value like any other and is written.
The records then follow from the law of records, and lists and rows from that of
sequences. Doubles are left out, since their text is only the shortest of those
that stand for them.
-/

namespace BoundSql

open Json (within Decoder)
open Json.Decoder (Reads)

/-! ## Values -/

namespace Value

/-- A value in which no double occurs. -/
inductive FloatFree : Value → Prop
  | null : FloatFree .null
  | bool (b : Bool) : FloatFree (.bool b)
  | int (n : Int64) : FloatFree (.int n)
  | text (s : String) : FloatFree (.text s)
  | list {items : List Value} (free : ∀ item ∈ items, FloatFree item) : FloatFree (.list items)

theorem itemsToJson_eq_map (items : List Value) : itemsToJson items = items.map toJson := by
  induction items with
  | nil => rfl
  | cons item items ih => rw [itemsToJson, ih, List.map_cons]

/-- A value without floats is written exactly. -/
theorem toJson_exact {value : Value} (h : value.FloatFree) : value.toJson.Exact := by
  induction h with
  | null => exact .null
  | bool b => exact .bool b
  | int n =>
    rw [toJson]
    exact .int n.minValue_le_toInt (Int.lt_of_le_of_lt n.toInt_le (by decide))
  | text s => exact .string s
  | list _ ih =>
    rw [toJson, itemsToJson_eq_map]
    refine .array fun json hjson => ?_
    obtain ⟨item, hitem, rfl⟩ := List.mem_map.mp hjson
    exact ih item hitem

/-- The items of a list are read back if each of them is. -/
theorem itemsOfJson?_map {items : List Value}
    (h : ∀ item ∈ items, ofJson? item.toJson = some item) :
    itemsOfJson? (items.map toJson) = some items := by
  induction items with
  | nil => rfl
  | cons item items ih =>
    rw [List.map_cons, itemsOfJson?, h item List.mem_cons_self,
      ih fun other hother => h other (.tail _ hother)]
    rfl

/-- The JSON value of a value without doubles looks like that value alone. -/
theorem ofJson?_toJson {value : Value} (h : value.FloatFree) :
    ofJson? value.toJson = some value := by
  induction h with
  | null => rfl
  | bool b => rfl
  | int n =>
    rw [toJson, ofJson?, ofInt, if_pos ⟨n.minValue_le_toInt, n.toInt_le⟩, Int64.ofInt_toInt]
  | text s => rfl
  | list _ ih =>
    rw [toJson, itemsToJson_eq_map, ofJson?, itemsOfJson?_map ih]
    rfl

/-- A value without floats reads back. -/
theorem decoder_reads_toJson {value : Value} (h : value.FloatFree) :
    Reads decoder value.toJson value := by
  intro room
  rw [decoder, Decoder.anything_reads (toJson_exact h) room]
  refine Json.within_bind_pure ?_
  rw [ofJson?_toJson h]

end Value

/-! ## Names -/

/-- A comparison reads back from its written form. -/
theorem Comparison.decoder_reads_sql (op : Comparison) :
    Reads Comparison.decoder (.string op.sql) op :=
  Decoder.readString_reads (by rw [read, ofSql?_sql]; rfl)

theorem Connective.decoder_reads_sql (op : Connective) :
    Reads Connective.decoder (.string op.sql) op :=
  Decoder.readString_reads (by rw [read, ofSql?_sql]; rfl)

theorem BindType.decoder_reads_toJson (kind : BindType) :
    Reads BindType.decoder kind.toJson kind := by
  have hfind : ((all.map fun other => (other.name, Json.Payload.nothing other)).find?
      fun row => row.1 == kind.name) = some (kind.name, Json.Payload.nothing kind) := by
    cases kind <;> rfl
  exact Decoder.choice_reads hfind rfl

/-! ## Groupings -/

namespace Grouping

/-- The JSON value of each member of a grouping. -/
def member? (grouping : Grouping) : Member → Option Json
  | .key => some (.string grouping.key)
  | .before => grouping.before.map .string
  | .after => grouping.after.map .string

/-- Puts a member of a grouping into another one. -/
def place (grouping : Grouping) : Member → Grouping → Grouping
  | .key, other => { other with key := grouping.key }
  | .before, other => { other with before := grouping.before }
  | .after, other => { other with after := grouping.after }

theorem toJson_eq_written (grouping : Grouping) :
    grouping.toJson = .object (shape.written grouping.member? shape.fields) := by
  simp [toJson, shape, Json.Shape.written, member?, Json.member?]

theorem setMember_places (grouping : Grouping) :
    Json.Shape.Places setMember grouping.member? grouping.place := by
  intro room other field value hvalue
  cases field with
  | key =>
    obtain rfl := Option.some.inj hvalue
    rw [setMember, Decoder.string_reads _ room]
    exact Json.within_bind_pure rfl
  | before =>
    rw [setMember, Decoder.optional_reads Decoder.string_reads nofun hvalue room]
    exact Json.within_bind_pure rfl
  | after =>
    rw [setMember, Decoder.optional_reads Decoder.string_reads nofun hvalue room]
    exact Json.within_bind_pure rfl

/-- A grouping reads back. -/
theorem decoder_reads_toJson (grouping : Grouping) : Reads decoder grouping.toJson grouping := by
  rw [toJson_eq_written]
  refine Json.Shape.decoder_reads grouping.setMember_places (by decide) (by decide) ?_ ?_
  · intro field _ hrequired
    cases field with
    | key => rfl
    | before | after => exact absurd hrequired (by decide)
  · -- What is absent stays as the initial record has it.
    rcases grouping with ⟨key, _ | before, _ | after⟩ <;> rfl

theorem toJson_exact (grouping : Grouping) : grouping.toJson.Exact := by
  rw [toJson_eq_written]
  refine Json.Shape.written_exact fun field value hvalue => ?_
  cases field with
  | key => exact Option.some.inj hvalue ▸ .string _
  | before | after =>
    obtain ⟨s, -, rfl⟩ := Option.map_eq_some_iff.mp hvalue
    exact .string s

end Grouping

/-! ## Criteria -/

namespace Criterion

/-- Whether no double occurs in a criterion. -/
def FloatFree (criterion : Criterion) : Prop :=
  ∀ value ∈ criterion.value, value.FloatFree

/-- The JSON value of each member of a criterion. -/
def member? (criterion : Criterion) : Member → Option Json
  | .column => some (.string criterion.column)
  | .comparison => criterion.comparison.map fun op => .string op.sql
  | .value => criterion.value.map Value.toJson
  | .connective => criterion.connective.map fun op => .string op.sql
  | .bindType => criterion.bindType.map BindType.toJson
  | .grouping => criterion.grouping.map Grouping.toJson

/-- Puts a member of a criterion into another one. -/
def place (criterion : Criterion) : Member → Criterion → Criterion
  | .column, other => { other with column := criterion.column }
  | .comparison, other => { other with comparison := criterion.comparison }
  | .value, other => { other with value := criterion.value }
  | .connective, other => { other with connective := criterion.connective }
  | .bindType, other => { other with bindType := criterion.bindType }
  | .grouping, other => { other with grouping := criterion.grouping }

/-- A criterion is written member by member; what is absent is not written. -/
theorem toJson_eq_written (criterion : Criterion) :
    criterion.toJson = .object (shape.written criterion.member? shape.fields) := by
  simp [toJson, shape, Json.Shape.written, member?, Json.member?]

/-- Its members are put in their places, if there is no float among the values. -/
theorem setMember_places {criterion : Criterion} (h : criterion.FloatFree) :
    Json.Shape.Places setMember criterion.member? criterion.place := by
  intro room other field value hvalue
  cases field with
  | column =>
    obtain rfl := Option.some.inj hvalue
    rw [setMember, Decoder.string_reads _ room]
    exact Json.within_bind_pure rfl
  | comparison =>
    rw [setMember, Decoder.optional_reads Comparison.decoder_reads_sql nofun hvalue room]
    exact Json.within_bind_pure rfl
  | value =>
    -- Null is read as a value here, so this member does not go through the optional decoder.
    obtain ⟨compared, hcompared, rfl⟩ := Option.map_eq_some_iff.mp hvalue
    rw [setMember, Value.decoder_reads_toJson (h compared hcompared) room]
    exact Json.within_bind_pure (by rw [place, hcompared])
  | connective =>
    rw [setMember, Decoder.optional_reads Connective.decoder_reads_sql nofun hvalue room]
    exact Json.within_bind_pure rfl
  | bindType =>
    rw [setMember, Decoder.optional_reads BindType.decoder_reads_toJson nofun hvalue room]
    exact Json.within_bind_pure rfl
  | grouping =>
    rw [setMember, Decoder.optional_reads Grouping.decoder_reads_toJson nofun hvalue room]
    exact Json.within_bind_pure rfl

/-- A criterion without floats reads back. -/
theorem decoder_reads_toJson {criterion : Criterion} (h : criterion.FloatFree) :
    Reads decoder criterion.toJson criterion := by
  rw [toJson_eq_written]
  refine Json.Shape.decoder_reads (setMember_places h) (by decide) (by decide) nofun ?_
  rcases criterion with ⟨column, _ | op, _ | value, _ | connective, _ | kind, _ | grouping⟩ <;> rfl

theorem toJson_exact {criterion : Criterion} (h : criterion.FloatFree) :
    criterion.toJson.Exact := by
  rw [toJson_eq_written]
  refine Json.Shape.written_exact fun field value hvalue => ?_
  cases field with
  | column => exact Option.some.inj hvalue ▸ .string _
  | comparison | connective | bindType =>
    obtain ⟨op, -, rfl⟩ := Option.map_eq_some_iff.mp hvalue
    exact .string _
  | value =>
    obtain ⟨compared, hcompared, rfl⟩ := Option.map_eq_some_iff.mp hvalue
    exact Value.toJson_exact (h compared hcompared)
  | grouping =>
    obtain ⟨grouping, -, rfl⟩ := Option.map_eq_some_iff.mp hvalue
    exact grouping.toJson_exact

/-- The JSON value of a criteria list. -/
def listToJson (criteria : List Criterion) : Json :=
  .array (criteria.map toJson)

/-- A list of criteria reads back if it is no deeper than a reader goes. -/
theorem decode_listToJson {criteria : List Criterion} (h : ∀ c ∈ criteria, c.FloatFree) :
    Json.decode (Decoder.sequence decoder) (listToJson criteria).text
      = within (listToJson criteria).depth Json.maxDepth criteria := by
  refine Json.decode_text (.array fun json hjson => ?_)
    (Decoder.sequence_reads criteria fun c hc => decoder_reads_toJson (h c hc))
  obtain ⟨c, hc, rfl⟩ := List.mem_map.mp hjson
  exact toJson_exact (h c hc)

end Criterion

/-! ## Assignments -/

namespace Assignment

/-- The JSON value of each member of an assignment. -/
def member? (assignment : Assignment) : Member → Option Json
  | .column => some (.string assignment.column)
  | .value => some assignment.value.toJson
  | .bound => some (.bool assignment.bound)
  | .bindType => assignment.bindType.map BindType.toJson

/-- Puts a member of an assignment into another one. -/
def place (assignment : Assignment) : Member → Assignment → Assignment
  | .column, other => { other with column := assignment.column }
  | .value, other => { other with value := assignment.value }
  | .bound, other => { other with bound := assignment.bound }
  | .bindType, other => { other with bindType := assignment.bindType }

theorem toJson_eq_written (assignment : Assignment) :
    assignment.toJson = .object (shape.written assignment.member? shape.fields) := by
  simp [toJson, shape, Json.Shape.written, member?, Json.member?]

/-- The members of an assignment are put in their places, like those of a criterion. -/
theorem setMember_places {assignment : Assignment} (h : assignment.value.FloatFree) :
    Json.Shape.Places setMember assignment.member? assignment.place := by
  intro room other field value hvalue
  cases field with
  | column =>
    obtain rfl := Option.some.inj hvalue
    rw [setMember, Decoder.string_reads _ room]
    exact Json.within_bind_pure rfl
  | value =>
    obtain rfl := Option.some.inj hvalue
    rw [setMember, Value.decoder_reads_toJson h room]
    exact Json.within_bind_pure rfl
  | bound =>
    obtain rfl := Option.some.inj hvalue
    rw [setMember, Decoder.boolean_reads _ room]
    exact Json.within_bind_pure rfl
  | bindType =>
    rw [setMember, Decoder.optional_reads BindType.decoder_reads_toJson nofun hvalue room]
    exact Json.within_bind_pure rfl

/-- An assignment without floats reads back. -/
theorem decoder_reads_toJson {assignment : Assignment} (h : assignment.value.FloatFree) :
    Reads decoder assignment.toJson assignment := by
  rw [toJson_eq_written]
  refine Json.Shape.decoder_reads (setMember_places h) (by decide) (by decide) ?_ ?_
  · intro field _ hrequired
    cases field with
    | column | value | bound => rfl
    | bindType => exact absurd hrequired (by decide)
  · rcases assignment with ⟨column, value, bound, _ | kind⟩ <;> rfl

theorem toJson_exact {assignment : Assignment} (h : assignment.value.FloatFree) :
    assignment.toJson.Exact := by
  rw [toJson_eq_written]
  refine Json.Shape.written_exact fun field value hvalue => ?_
  cases field with
  | column => exact Option.some.inj hvalue ▸ .string _
  | value => exact Option.some.inj hvalue ▸ Value.toJson_exact h
  | bound => exact Option.some.inj hvalue ▸ .bool _
  | bindType =>
    obtain ⟨kind, -, rfl⟩ := Option.map_eq_some_iff.mp hvalue
    exact .string _

/-- The JSON value of the rows of a batch. -/
def rowsToJson (rows : List (List Assignment)) : Json :=
  .array (rows.map fun row => .array (row.map toJson))

/-- The rows of a batch read back within the same depth. -/
theorem decode_rowsToJson {rows : List (List Assignment)}
    (h : ∀ row ∈ rows, ∀ a ∈ row, a.value.FloatFree) :
    readRows (rowsToJson rows).text = within (rowsToJson rows).depth Json.maxDepth rows := by
  refine Json.decode_text (.array fun json hjson => ?_)
    (Decoder.sequence_reads rows fun row hrow =>
      Decoder.sequence_reads row fun a ha => decoder_reads_toJson (h row hrow a ha))
  obtain ⟨row, hrow, rfl⟩ := List.mem_map.mp hjson
  refine .array fun json hjson => ?_
  obtain ⟨a, ha, rfl⟩ := List.mem_map.mp hjson
  exact toJson_exact (h row hrow a ha)

end Assignment

/-! ## Lists and rows -/

/-- A criteria list and the rows of a batch are read back from their text as they
were, unless the text nests 128 or more containers. Then nothing is read: a criteria
list is refused as such, and rows are malformed. -/
theorem written_lists_read_back (criteria : List Criterion) (rows : List (List Assignment))
    (hcriteria : ∀ c ∈ criteria, c.FloatFree)
    (hrows : ∀ row ∈ rows, ∀ a ∈ row, a.value.FloatFree) :
    ((Criterion.listToJson criteria).depth < 128 →
      Criterion.readList (Criterion.listToJson criteria).text = .ok criteria) ∧
    (128 ≤ (Criterion.listToJson criteria).depth →
      ∃ fault, Criterion.readList (Criterion.listToJson criteria).text = .error fault ∧
        fault.code = .invalidCriteria) ∧
    ((Assignment.rowsToJson rows).depth < 128 →
      Assignment.readRows (Assignment.rowsToJson rows).text = .ok rows) ∧
    (128 ≤ (Assignment.rowsToJson rows).depth →
      Assignment.readRows (Assignment.rowsToJson rows).text = .error .malformed) := by
  have hmax : Json.maxDepth = 127 := rfl
  refine ⟨fun h => ?_, fun h => ?_, fun h => ?_, fun h => ?_⟩
  · rw [Criterion.readList, Criterion.decode_listToJson hcriteria, Json.within_of_le _ (by omega)]
    rfl
  · rw [Criterion.readList, Criterion.decode_listToJson hcriteria, Json.within_of_lt _ (by omega)]
    exact ⟨_, rfl, rfl⟩
  · rw [Assignment.decode_rowsToJson hrows, Json.within_of_le _ (by omega)]
    rfl
  · rw [Assignment.decode_rowsToJson hrows, Json.within_of_lt _ (by omega)]
    rfl

/-- A value inside so many lists. -/
def Value.wrapped (value : Value) : Nat → Value
  | 0 => value
  | n + 1 => .list [wrapped value n]

/-- Wrapping a value in lists brings no floats. -/
theorem Value.wrapped_floatFree {value : Value} (h : value.FloatFree) (n : Nat) :
    (value.wrapped n).FloatFree := by
  induction n with
  | zero => exact h
  | succ n ih => exact .list fun item hitem => List.mem_singleton.mp hitem ▸ ih

theorem Value.depth_wrapped_null (n : Nat) : (Value.null.wrapped n).toJson.depth = n := by
  induction n with
  | zero => rfl
  | succ n ih => simp [wrapped, toJson, itemsToJson, Json.depth, Json.itemsDepth, ih]

/-- Criteria with every kind of escape, with a value that is null and one that is
absent, and with a null inside `n` lists. -/
def escapesAndLists (n : Nat) : List Criterion :=
  [{ column := "a\"\\\x00\x1f\n/é\u2028😀", value := some .null },
    { column := "", comparison := some .isNotNull, connective := some .xor },
    { column := "b", comparison := some .notIn, value := some (Value.null.wrapped n),
      connective := some .not, bindType := some .large,
      grouping := some { key := "k", before := some "", after := none } }]

theorem escapesAndLists_floatFree (n : Nat) : ∀ c ∈ escapesAndLists n, c.FloatFree := by
  simp only [escapesAndLists, List.forall_mem_cons, List.not_mem_nil, false_imp_iff, implies_true,
    and_true]
  refine ⟨?_, nofun, ?_⟩
  · rintro _ ⟨⟩
    exact .null
  · rintro _ ⟨⟩
    exact Value.wrapped_floatFree .null n

theorem depth_escapesAndLists {n : Nat} (h : 1 ≤ n) :
    (Criterion.listToJson (escapesAndLists n)).depth = n + 2 := by
  simp [Criterion.listToJson, escapesAndLists, Criterion.toJson, Grouping.toJson,
    BindType.toJson, Json.member?, Json.depth, Json.itemsDepth, Json.membersDepth, Value.toJson,
    Value.depth_wrapped_null, h]

/-- One more list around a value, and it is too deep to be read back. -/
theorem written_lists_read_back_limit :
    (∀ n, ∀ c ∈ escapesAndLists n, c.FloatFree) ∧
    Criterion.readList (Criterion.listToJson (escapesAndLists 125)).text
      = .ok (escapesAndLists 125) ∧
    (∃ fault, Criterion.readList (Criterion.listToJson (escapesAndLists 126)).text = .error fault ∧
      fault.code = .invalidCriteria) ∧
    Assignment.readRows (Assignment.rowsToJson [[], [.raw "é" "NOW()"]]).text
      = .ok [[], [.raw "é" "NOW()"]] := by
  have hrows : ∀ row ∈ [[], [Assignment.raw "é" "NOW()"]], ∀ a ∈ row, a.value.FloatFree := by
    simp [Assignment.raw, Value.FloatFree.text]
  have hbelow := written_lists_read_back (escapesAndLists 125) [[], [.raw "é" "NOW()"]]
    (escapesAndLists_floatFree 125) hrows
  have habove := written_lists_read_back (escapesAndLists 126) [] (escapesAndLists_floatFree 126)
    nofun
  have hshallow : (Criterion.listToJson (escapesAndLists 125)).depth = 127 :=
    depth_escapesAndLists (by decide)
  have hdeep : (Criterion.listToJson (escapesAndLists 126)).depth = 128 :=
    depth_escapesAndLists (by decide)
  exact ⟨escapesAndLists_floatFree, hbelow.1 (by omega), habove.2.1 (by omega),
    hbelow.2.2.1 (by decide)⟩

end BoundSql
