import BoundSql.Proofs.Records
import BoundSql.Proofs.RegistryRun
import BoundSql.Registry.Json

/-!
# Registries read from JSON

The tables of a registry and the pairs of a table are members of objects, and both
go into a keyed list in the order in which they are written. So a registry is read
as it would be built: the tables are added in document order, each of them made
from its name and joined on its pairs in document order, whatever is repeated
among aliases and left sides. A table itself may be written as an object, where
its name and its pairs stand in any order among members of other names, or as an
array.

What a document says is put down as a relation that knows nothing of decoding.
The first law is an iff: the documents that say how to build a registry are those
that are decoded, and to that registry. The second follows from it, because the
JSON value of a registry says how to build it.

> `Registry.read_as_added`: reading a registry is building it, and what is
> written of any registry is read back as that registry.
-/

namespace BoundSql

open Json (Doc Shape)

/-! ## Members -/

namespace Json

/-- A string is all that is read as one. -/
theorem Decoder.string_eq_ok_iff {room : Nat} {doc : Doc} {s : String} :
    Decoder.string room doc = .ok s ↔ doc = .string (some s) := by
  constructor
  · intro h
    unfold Decoder.string at h
    split at h
    · cases h
      rfl
    · cases h
  · intro h
    rw [h]
    rfl

/-- The entries of an object are its members, each with its key and what its document
stands for. -/
theorem Decoder.entries_eq_ok_iff {α : Type} {decoder : Decoder α} {room : Nat} {doc : Doc}
    {entries : List (String × α)} :
    Decoder.entries decoder (room + 1) doc = .ok entries ↔
      ∃ members, doc = .object members ∧
        List.Forall₂ (fun member entry => member.1 = some entry.1 ∧
          decoder room member.2 = .ok entry.2) members entries := by
  have hmember : ∀ (member : Option String × Doc) (entry : String × α),
      ((do
        let key ← keyText member.1
        pure (key, ← decoder room member.2)) : Decoded (String × α)) = .ok entry ↔
        member.1 = some entry.1 ∧ decoder room member.2 = .ok entry.2 := by
    intro member entry
    obtain ⟨_ | key, doc⟩ := member
    · refine iff_of_false nofun ?_
      intro h
      cases h.1
    · refine bind_eq_ok_iff.trans ?_
      constructor
      · intro h
        obtain ⟨_, hkey, hvalue⟩ := h
        cases hkey
        obtain ⟨value, hdoc, hentry⟩ := bind_eq_ok_iff.mp hvalue
        cases hentry
        exact ⟨rfl, hdoc⟩
      · intro h
        obtain ⟨hkey, hdoc⟩ := h
        cases hkey
        exact ⟨entry.1, rfl, bind_eq_ok_iff.mpr ⟨entry.2, hdoc, rfl⟩⟩
  cases doc with
  | object members =>
    rw [Decoder.entries, mapM_eq_ok_iff]
    simp only [hmember, Doc.object.injEq, exists_eq_left']
  | broken | null | bool _ | number _ | string _ | array _ =>
    refine iff_of_false ?_ ?_
    · intro h
      cases h
    · intro h
      obtain ⟨_, hdoc, -⟩ := h
      cases hdoc

theorem memberDocs_eq_map (members : List (String × Json)) :
    memberDocs members = members.map fun member => (some member.1, member.2.doc) := by
  induction members with
  | nil => rfl
  | cons member members ih => rw [memberDocs, ih, List.map_cons]

/-- The documents of all members of a name, in their order. -/
def valuesOf (name : String) (members : List (Option String × Doc)) : List Doc :=
  (members.filter (·.1 = some name)).map Prod.snd

/-- The documents that set a field are those of the members of its name. -/
theorem Shape.map_snd_known {φ : Type} [DecidableEq φ] {shape : Shape φ}
    (hlabel : ∀ name field, shape.field? name = some field ↔ shape.label field = name)
    (field : φ) (members : List (Option String × Doc)) :
    ((shape.known members).filter (·.1 = field)).map Prod.snd
      = valuesOf (shape.label field) members := by
  induction members with
  | nil => rfl
  | cons member members ih =>
    obtain ⟨_ | name, doc⟩ := member
    · exact ih
    · rw [valuesOf, List.filter_cons]
      cases hfield : shape.field? name with
      | none =>
        have hother : ¬ shape.label field = name := by
          intro h
          rw [(hlabel name field).mpr h] at hfield
          cases hfield
        rw [known_cons_of_none hfield, ih]
        simp [valuesOf, Ne.symm hother]
      | some other =>
        rw [known_cons_of_field hfield, List.filter_cons]
        by_cases hsame : other = field
        · subst hsame
          have hname : shape.label other = name := (hlabel name other).mp hfield
          simp [hname, ih, valuesOf]
        · have hother : ¬ shape.label field = name := by
            intro h
            rw [(hlabel name field).mpr h] at hfield
            exact hsame (Option.some.inj hfield).symm
          simp [hsame, Ne.symm hother, ih, valuesOf]

end Json

/-! ## Tables -/

namespace Table

/-- The document of pairs of texts: an object with a member for each of them, in their order. -/
def pairsDoc (pairs : List (String × String)) : Doc :=
  .object (pairs.map fun pair => (some pair.1, .string (some pair.2)))

/-- Pairs are written as an object, or as nothing at all if there are none. -/
inductive PairsAs (pairs : List (String × String)) : List Doc → Prop
  | absent (hpairs : pairs = []) : PairsAs pairs []
  | present : PairsAs pairs [pairsDoc pairs]

/-- A document says how a table is made: an object that has its name once and its pairs at
most once, in any order and among members of other names that are at least of the grammar,
or an array of its name and its pairs. -/
inductive Recipe.WrittenAs (recipe : Recipe) : Doc → Prop
  | object {members : List (Option String × Doc)}
    (hwhole : ∀ member ∈ members, member.1.isSome = true ∧ member.2.isWhole = true)
    (hname : Json.valuesOf "name" members = [.string (some recipe.name)])
    (hon : PairsAs recipe.pairs (Json.valuesOf "on" members)) : WrittenAs recipe (.object members)
  | array {docs : List Doc} (hon : PairsAs recipe.pairs docs) :
    WrittenAs recipe (.array (.string (some recipe.name) :: docs))

/-- Pairs are read from an object whose members are strings, in their order. -/
theorem entries_eq_ok_iff {room : Nat} {doc : Doc} {pairs : List (String × String)} :
    Json.Decoder.entries Json.Decoder.string (room + 1) doc = .ok pairs ↔
      doc = pairsDoc pairs := by
  rw [Json.Decoder.entries_eq_ok_iff]
  have hmember : (fun (member : Option String × Doc) (entry : String × String) =>
      member.1 = some entry.1 ∧ Json.Decoder.string room member.2 = .ok entry.2)
        = fun member entry => member = (some entry.1, .string (some entry.2)) := by
    funext member entry
    rw [Json.Decoder.string_eq_ok_iff, Prod.ext_iff]
  rw [hmember]
  constructor
  · intro h
    obtain ⟨members, hdoc, hmembers⟩ := h
    rw [hdoc, pairsDoc]
    congr 1
    rw [← List.forall₂_eq_eq_eq, List.forall₂_map_right_iff]
    exact hmembers
  · intro h
    refine ⟨_, h, ?_⟩
    rw [List.forall₂_map_left_iff]
    exact List.forall₂_same.mpr fun _ _ => rfl

/-- The name of a table is set from a string. -/
theorem setMember_name_eq_ok_iff {room : Nat} {table x : Table} {doc : Doc} :
    setMember room table .name doc = .ok x ↔
      ∃ name, doc = .string (some name) ∧ { table with name } = x := by
  refine bind_eq_ok_iff.trans (exists_congr fun name => ?_)
  rw [Json.Decoder.string_eq_ok_iff]
  simp [pure, Except.pure]

/-- Its condition is set from an object of pairs, of which the last counts under each key. -/
theorem setMember_on_eq_ok_iff {room : Nat} {table x : Table} {doc : Doc} :
    setMember (room + 1) table .on doc = .ok x ↔
      ∃ pairs, doc = pairsDoc pairs ∧ { table with on := KeyedList.ofEntries pairs } = x := by
  refine bind_eq_ok_iff.trans (exists_congr fun pairs => ?_)
  rw [entries_eq_ok_iff]
  simp [pure, Except.pure]

/-- There are two fields, and the name is required. -/
theorem fields_cases {β : Type} {fields : List (Member × β)}
    (hnodup : (fields.map Prod.fst).Nodup) (hname : Member.name ∈ fields.map Prod.fst) :
    ∃ x, fields = [(.name, x)] ∨
      ∃ y, fields = [(.name, x), (.on, y)] ∨ fields = [(.on, y), (.name, x)] := by
  match fields with
  | [] => cases hname
  | [(.name, x)] => exact ⟨x, .inl rfl⟩
  | [(.on, y)] => simp at hname
  | [(.name, x), (.on, y)] => exact ⟨x, .inr ⟨y, .inl rfl⟩⟩
  | [(.on, y), (.name, x)] => exact ⟨x, .inr ⟨y, .inr rfl⟩⟩
  | (.name, _) :: (.name, _) :: _ | (.on, _) :: (.on, _) :: _ => simp at hnodup
  | (.name, _) :: (.on, _) :: (third, _) :: _ | (.on, _) :: (.name, _) :: (third, _) :: _ =>
    cases third <;> simp at hnodup

theorem pairsAs_nil_iff {pairs : List (String × String)} : PairsAs pairs [] ↔ pairs = [] := by
  constructor
  · intro h
    cases h with
    | absent hpairs => exact hpairs
  · intro h
    exact .absent h

theorem pairsAs_singleton_iff {pairs : List (String × String)} {doc : Doc} :
    PairsAs pairs [doc] ↔ doc = pairsDoc pairs := by
  constructor
  · intro h
    cases h with
    | present => rfl
  · intro h
    exact h ▸ .present

/-- Fields that are set one after the other make the table that they say how to make. -/
theorem assign_eq_ok_iff {room : Nat} {fields : List (Member × Doc)} {x : Table}
    (hnodup : (fields.map Prod.fst).Nodup) (hname : Member.name ∈ fields.map Prod.fst) :
    Shape.assign (fun field doc record => setMember (room + 1) record field doc) { name := "" }
        fields = .ok x ↔
      ∃ recipe : Recipe,
        (fields.filter (·.1 = .name)).map Prod.snd = [.string (some recipe.name)] ∧
        PairsAs recipe.pairs ((fields.filter (·.1 = .on)).map Prod.snd) ∧ recipe.table = x := by
  have hnil : ∀ table : Table,
      Shape.assign (fun field doc record => setMember (room + 1) record field doc) table []
        = .ok x ↔ table = x := by
    intro table
    simp [Shape.assign, pure, Except.pure]
  obtain ⟨nameDoc, rfl | ⟨onDoc, rfl | rfl⟩⟩ := fields_cases hnodup hname
  all_goals
    simp only [Shape.assign_cons_eq_ok_iff, setMember_name_eq_ok_iff, setMember_on_eq_ok_iff,
      hnil, Recipe.table_eq, List.filter_cons, List.filter_nil, decide_true, decide_false,
      if_true, if_false, reduceCtorEq, Bool.false_eq_true, List.map_cons, List.map_nil,
      List.cons.injEq, and_true, pairsAs_nil_iff, pairsAs_singleton_iff]
  -- The name alone.
  · constructor
    · intro h
      obtain ⟨_, ⟨name, hdoc, rfl⟩, rfl⟩ := h
      exact ⟨⟨name, []⟩, hdoc, rfl, rfl⟩
    · intro h
      obtain ⟨⟨name, _⟩, hdoc, rfl, rfl⟩ := h
      exact ⟨_, ⟨name, hdoc, rfl⟩, rfl⟩
  -- The name, then the pairs.
  · constructor
    · intro h
      obtain ⟨_, ⟨name, hdoc, rfl⟩, _, ⟨pairs, hpairs, rfl⟩, rfl⟩ := h
      exact ⟨⟨name, pairs⟩, hdoc, hpairs, rfl⟩
    · intro h
      obtain ⟨⟨name, pairs⟩, hdoc, hpairs, rfl⟩ := h
      exact ⟨_, ⟨name, hdoc, rfl⟩, _, ⟨pairs, hpairs, rfl⟩, rfl⟩
  -- The pairs, then the name.
  · constructor
    · intro h
      obtain ⟨_, ⟨pairs, hpairs, rfl⟩, _, ⟨name, hdoc, rfl⟩, rfl⟩ := h
      exact ⟨⟨name, pairs⟩, hdoc, hpairs, rfl⟩
    · intro h
      obtain ⟨⟨name, pairs⟩, hdoc, hpairs, rfl⟩ := h
      exact ⟨_, ⟨pairs, hpairs, rfl⟩, _, ⟨name, hdoc, rfl⟩, rfl⟩

/-- A field is found under its label. -/
theorem field?_eq_some_iff (name : String) (field : Member) :
    shape.field? name = some field ↔ shape.label field = name := by
  constructor
  · intro h
    have hfound := List.find?_some h
    simpa using hfound
  · intro h
    rw [← h]
    cases field <;> rfl

theorem isWhole_pairsDoc (pairs : List (String × String)) : (pairsDoc pairs).isWhole = true := by
  show Json.membersWhole _ = true
  induction pairs with
  | nil => rfl
  | cons pair pairs ih => exact ih

/-- There is one document at most for the condition of a table. -/
theorem PairsAs.length_le {pairs : List (String × String)} {docs : List Doc}
    (h : PairsAs pairs docs) : docs.length ≤ 1 := by
  cases h with
  | absent => exact Nat.zero_le 1
  | present => exact Nat.le_refl 1

theorem PairsAs.isWhole {pairs : List (String × String)} {docs : List Doc}
    (h : PairsAs pairs docs) : ∀ doc ∈ docs, doc.isWhole = true := by
  cases h with
  | absent => exact nofun
  | present => exact List.forall_mem_singleton.mpr (isWhole_pairsDoc pairs)

/-- No field is set twice if no field has more than one document. -/
theorem nodup_fields {β : Type} {fields : List (Member × β)}
    (h : ∀ field, ((fields.filter (·.1 = field)).map Prod.snd).length ≤ 1) :
    (fields.map Prod.fst).Nodup := by
  rw [List.nodup_iff_count_le_one]
  intro field
  have hfield := h field
  rw [List.length_map, ← List.countP_eq_length_filter] at hfield
  rw [List.count, List.countP_map]
  exact hfield

section Objects

variable {recipe : Recipe} {members : List (Option String × Doc)}

theorem documents_name : ((shape.known members).filter (·.1 = .name)).map Prod.snd
    = Json.valuesOf "name" members :=
  Shape.map_snd_known field?_eq_some_iff .name members

theorem documents_on : ((shape.known members).filter (·.1 = .on)).map Prod.snd
    = Json.valuesOf "on" members :=
  Shape.map_snd_known field?_eq_some_iff .on members

/-- What is written for a field is of the grammar anyway. -/
theorem passable_iff (hname : Json.valuesOf "name" members = [.string (some recipe.name)])
    (hon : PairsAs recipe.pairs (Json.valuesOf "on" members)) :
    (∀ member ∈ members, shape.Passable member) ↔
      ∀ member ∈ members, member.1.isSome = true ∧ member.2.isWhole = true := by
  constructor
  · intro h member hmember
    obtain ⟨key, hkey, hother⟩ := h member hmember
    refine ⟨by rw [hkey]; rfl, ?_⟩
    have hmem : member.2 ∈ Json.valuesOf key members :=
      List.mem_map.mpr ⟨member, List.mem_filter.mpr ⟨hmember, by simpa using hkey⟩, rfl⟩
    cases hfield : shape.field? key with
    | none => exact hother hfield
    | some field =>
      obtain rfl := (field?_eq_some_iff key field).mp hfield
      cases field with
      | name =>
        obtain hdoc := List.mem_singleton.mp (hname ▸ hmem)
        rw [hdoc]
        rfl
      | on => exact hon.isWhole _ hmem
  · intro h member hmember
    obtain ⟨hkey, hwhole⟩ := h member hmember
    obtain ⟨key, hkey⟩ := Option.isSome_iff_exists.mp hkey
    exact ⟨key, hkey, fun _ => hwhole⟩

/-- A table is decoded from an object exactly if the object says how to make it. -/
theorem decoder_object_eq_ok_iff {room : Nat} {table : Table} :
    decoder (room + 2) (.object members) = .ok table ↔
      ∃ recipe : Recipe, recipe.WrittenAs (.object members) ∧ recipe.table = table := by
  rw [decoder, Shape.decoder_object_eq_ok_iff]
  constructor
  · intro h
    obtain ⟨hpass, hnodup, hassign, hrequired⟩ := h
    obtain ⟨recipe, hname, hon, htable⟩ :=
      (assign_eq_ok_iff hnodup (hrequired .name (by decide) rfl)).mp hassign
    rw [documents_name] at hname
    rw [documents_on] at hon
    exact ⟨recipe, .object ((passable_iff hname hon).mp hpass) hname hon, htable⟩
  · intro h
    obtain ⟨recipe, hwritten, htable⟩ := h
    cases hwritten with
    | object hwhole hname hon =>
      have hnodup : ((shape.known members).map Prod.fst).Nodup := by
        apply nodup_fields
        intro field
        cases field with
        | name => exact Nat.le_of_eq (congrArg List.length (documents_name.trans hname))
        | on => exact documents_on ▸ hon.length_le
      have hmem : Member.name ∈ (shape.known members).map Prod.fst := by
        have hset : Doc.string (some recipe.name)
            ∈ ((shape.known members).filter (·.1 = .name)).map Prod.snd := by
          rw [documents_name, hname]
          exact List.mem_singleton_self _
        obtain ⟨pair, hpair, -⟩ := List.mem_map.mp hset
        obtain ⟨hknown, hfield⟩ := List.mem_filter.mp hpair
        exact List.mem_map.mpr ⟨pair, hknown, of_decide_eq_true hfield⟩
      refine ⟨(passable_iff hname hon).mpr hwhole, hnodup, ?_, ?_⟩
      · refine (assign_eq_ok_iff hnodup hmem).mpr ⟨recipe, ?_, ?_, htable⟩
        · rw [documents_name, hname]
        · rw [documents_on]
          exact hon
      · intro field _ hrequired
        cases field with
        | name => exact hmem
        | on => cases hrequired

end Objects

/-- The items of an array are its name and its pairs, in the order of the fields. -/
theorem assign_items_eq_ok_iff {room : Nat} {nameDoc : Doc} {onDocs : List Doc} {x : Table}
    (hlength : onDocs.length ≤ 1) :
    Shape.assign (fun field doc record => setMember (room + 1) record field doc) { name := "" }
        (shape.fields.zip (nameDoc :: onDocs)) = .ok x ↔
      ∃ recipe : Recipe,
        nameDoc = .string (some recipe.name) ∧ PairsAs recipe.pairs onDocs ∧ recipe.table = x := by
  match onDocs with
  | [] =>
    rw [assign_eq_ok_iff]
    · simp [shape]
    · exact List.nodup_singleton Member.name
    · exact .head _
  | [onDoc] =>
    rw [assign_eq_ok_iff]
    · simp [shape]
    · exact (by decide : [Member.name, Member.on].Nodup)
    · exact .head _
  | _ :: _ :: _ => simp at hlength

/-- A table is decoded from an array exactly if the array says how to make it. -/
theorem decoder_array_eq_ok_iff {room : Nat} {docs : List Doc} {table : Table} :
    decoder (room + 2) (.array docs) = .ok table ↔
      ∃ recipe : Recipe, recipe.WrittenAs (.array docs) ∧ recipe.table = table := by
  rw [decoder, Shape.decoder_array_eq_ok_iff]
  cases docs with
  | nil =>
    refine iff_of_false ?_ ?_
    · intro h
      cases h.2.1 .name (.head _)
    · intro h
      obtain ⟨_, hwritten, -⟩ := h
      cases hwritten
  | cons nameDoc onDocs =>
    constructor
    · intro h
      obtain ⟨hlength, -, hassign⟩ := h
      obtain ⟨recipe, rfl, hon, htable⟩ :=
        (assign_items_eq_ok_iff (Nat.le_of_succ_le_succ hlength)).mp hassign
      exact ⟨recipe, .array hon, htable⟩
    · intro h
      obtain ⟨recipe, hwritten, htable⟩ := h
      cases hwritten with
      | array hon =>
        refine ⟨Nat.succ_le_succ hon.length_le, ?_,
          (assign_items_eq_ok_iff hon.length_le).mpr ⟨recipe, rfl, hon, htable⟩⟩
        intro field hfield
        -- Of the two fields the first has an item.
        have hmem : field ∈ [Member.on] := List.mem_of_mem_drop hfield
        rw [List.mem_singleton.mp hmem]
        rfl

/-- **A table is decoded** exactly if its document says how to make it. -/
theorem decoder_eq_ok_iff {room : Nat} {doc : Doc} {table : Table} :
    decoder (room + 2) doc = .ok table ↔
      ∃ recipe : Recipe, recipe.WrittenAs doc ∧ recipe.table = table := by
  cases doc with
  | object members => exact decoder_object_eq_ok_iff
  | array docs => exact decoder_array_eq_ok_iff
  | broken | null | bool _ | number _ | string _ =>
    refine iff_of_false ?_ ?_
    · intro h
      cases h
    · intro h
      obtain ⟨_, hwritten, -⟩ := h
      cases hwritten

/-- A table is written as its own recipe. -/
theorem writtenAs_toJson (table : Table) : table.recipe.WrittenAs table.toJson.doc := by
  rw [toJson, Json.doc, Json.memberDocs_eq_map, List.map_cons]
  by_cases hempty : table.on.isEmpty = true
  · rw [if_pos hempty]
    refine .object ?_ (by simp [Json.valuesOf, Json.doc, recipe]) ?_
    · exact List.forall_mem_singleton.mpr ⟨rfl, rfl⟩
    · exact .absent (List.isEmpty_iff.mp hempty)
  · have hdoc : (Json.object (table.on.entries.map fun pair => (pair.1, .string pair.2))).doc
        = pairsDoc table.recipe.pairs := by
      rw [Json.doc, Json.memberDocs_eq_map, List.map_map]
      rfl
    rw [if_neg hempty, List.map_singleton]
    dsimp only
    rw [hdoc]
    refine .object ?_ (by simp [Json.valuesOf, Json.doc, recipe]) ?_
    · refine List.forall_mem_cons.mpr ⟨⟨rfl, rfl⟩, ?_⟩
      exact List.forall_mem_singleton.mpr ⟨rfl, isWhole_pairsDoc _⟩
    · simp [Json.valuesOf, pairsAs_singleton_iff]

/-- Pairs of strings are written exactly. -/
theorem pairs_exact (pairs : List (String × String)) :
    (Json.object (pairs.map fun pair => (pair.1, .string pair.2))).Exact := by
  refine .object ?_
  intro member hmember
  obtain ⟨pair, -, rfl⟩ := List.mem_map.mp hmember
  exact .string pair.2

theorem toJson_exact (table : Table) : table.toJson.Exact := by
  rw [toJson]
  refine .object (List.forall_mem_cons.mpr ⟨.string _, ?_⟩)
  split
  · exact nofun
  · exact List.forall_mem_singleton.mpr (pairs_exact table.on.entries)

end Table

/-! ## Registries -/

namespace Registry

/-- A document says how a registry is built: an object with a member for every table, in the
order in which they are added. -/
def WrittenAs (history : List (String × Table.Recipe)) (doc : Doc) : Prop :=
  ∃ members, doc = .object members ∧
    List.Forall₂ (fun member entry => member.1 = some entry.1 ∧ entry.2.WrittenAs member.2)
      members history

/-- Tables are added by what their recipes make. -/
theorem added_eq (history : List (String × Table.Recipe)) :
    added history = ofTables (history.map fun entry => (entry.1, entry.2.table)) := by
  rw [ofTables, ← tables_added]

/-- Tables are decoded exactly if there are recipes for them in the document. -/
theorem forall₂_decoder_iff {room : Nat} {members : List (Option String × Doc)}
    {tables : List (String × Table)} :
    List.Forall₂ (fun member entry => member.1 = some entry.1 ∧
        Table.decoder (room + 2) member.2 = .ok entry.2) members tables ↔
      ∃ history : List (String × Table.Recipe),
        List.Forall₂ (fun member entry => member.1 = some entry.1 ∧ entry.2.WrittenAs member.2)
          members history ∧
        history.map (fun entry => (entry.1, entry.2.table)) = tables := by
  constructor
  · intro h
    induction h with
    | nil => exact ⟨[], .nil, rfl⟩
    | cons hmember _ ih =>
      obtain ⟨hkey, hdecoded⟩ := hmember
      obtain ⟨recipe, hwritten, htable⟩ := Table.decoder_eq_ok_iff.mp hdecoded
      obtain ⟨history, hothers, hrest⟩ := ih
      refine ⟨(_, recipe) :: history, .cons ⟨hkey, hwritten⟩ hothers, ?_⟩
      rw [List.map_cons, hrest, htable]
  · intro h
    obtain ⟨history, hwritten, rfl⟩ := h
    rw [List.forall₂_map_right_iff]
    refine hwritten.imp fun member entry hmember => ?_
    exact ⟨hmember.1, Table.decoder_eq_ok_iff.mpr ⟨entry.2, hmember.2, rfl⟩⟩

/-- **A registry is decoded** exactly if its document says how to build it. -/
theorem decoder_eq_ok_iff {room : Nat} {doc : Doc} {registry : Registry} :
    decoder (room + 3) doc = .ok registry ↔
      ∃ history, WrittenAs history doc ∧ added history = registry := by
  have hdecoder : decoder (room + 3) doc = .ok registry ↔
      ∃ tables, Json.Decoder.entries Table.decoder (room + 3) doc = .ok tables ∧
        ofTables tables = registry := by
    rw [decoder]
    cases Json.Decoder.entries Table.decoder (room + 3) doc <;> simp
  rw [hdecoder]
  simp only [Json.Decoder.entries_eq_ok_iff, forall₂_decoder_iff]
  constructor
  · intro h
    obtain ⟨tables, ⟨members, hdoc, history, hwritten, rfl⟩, hregistry⟩ := h
    exact ⟨history, ⟨members, hdoc, hwritten⟩, (added_eq history).trans hregistry⟩
  · intro h
    obtain ⟨history, ⟨members, hdoc, hwritten⟩, hregistry⟩ := h
    exact ⟨_, ⟨members, hdoc, history, hwritten, rfl⟩, (added_eq history).symm.trans hregistry⟩

/-- The history of additions that fills a registry with its own tables. -/
def history (registry : Registry) : List (String × Table.Recipe) :=
  registry.tables.entries.map fun entry => (entry.1, entry.2.recipe)

/-- A registry is what its own history adds up to. -/
theorem added_history (registry : Registry) : added registry.history = registry := by
  rw [added_eq, history, List.map_map, ofTables]
  have hentries : registry.tables.entries.map
      ((fun entry => (entry.1, entry.2.table)) ∘ fun entry => (entry.1, entry.2.recipe))
        = registry.tables.entries :=
    List.map_id'' (fun entry => by simp [Table.table_recipe]) _
  rw [hentries, KeyedList.ofEntries_entries]

/-- A registry is written as its own history. -/
theorem writtenAs_toJson (registry : Registry) :
    WrittenAs registry.history registry.toJson.doc := by
  rw [toJson, Json.doc, Json.memberDocs_eq_map, List.map_map]
  refine ⟨_, rfl, ?_⟩
  rw [history, List.forall₂_map_left_iff, List.forall₂_map_right_iff]
  exact List.forall₂_same.mpr fun entry _ => ⟨rfl, entry.2.writtenAs_toJson⟩

theorem toJson_exact (registry : Registry) : registry.toJson.Exact := by
  refine .object ?_
  intro member hmember
  obtain ⟨entry, -, rfl⟩ := List.mem_map.mp hmember
  exact entry.2.toJson_exact

/-- Whatever is read as a registry is written as some history, and the whole text counts. -/
theorem read_eq_ok_iff {source : String} {registry : Registry} :
    read source = .ok registry ↔
      (Json.read source).2 = true ∧
        ∃ history, WrittenAs history (Json.read source).1 ∧ added history = registry := by
  rw [read, Json.decode_eq_ok_iff, and_comm]
  refine and_congr_right fun _ => ?_
  show decoder (124 + 3) _ = .ok registry ↔ _
  exact decoder_eq_ok_iff

/-- **Reading a registry is building it.** A text is read as a registry exactly if it is whole
and its document says how to build that registry: the registry is what is left when the tables
are added under their aliases in document order, each made of its name and joined on its pairs in
document order, whatever comes up again. So the aliases and the left sides of both stand in the
same order, and every selection from the one is that from the other, or fails alike. What is
written of a registry is read back as it. -/
theorem read_as_added (source : String) (registry : Registry) :
    (read source = .ok registry ↔
      (Json.read source).2 = true ∧
        ∃ history, WrittenAs history (Json.read source).1 ∧ added history = registry) ∧
      read registry.toJson.text = .ok registry := by
  refine ⟨read_eq_ok_iff, read_eq_ok_iff.mpr ?_⟩
  rw [Json.read_text registry.toJson_exact]
  exact ⟨rfl, registry.history, registry.writtenAs_toJson, registry.added_history⟩

/-- A document in which an alias and a left side come up again. One table is an array, another
has its pairs in front of its name, with a member of another name between them. -/
def repeating : Json :=
  .object [("o", .array [.string "orders"]), ("u", .object [("name", .string "users")]),
    ("o", .object
      [("on", .object [("u.id", .string "o.user"), ("u.year", .string "o.year"),
          ("u.id", .string "o.owner")]),
        ("hint", .null), ("name", .string "sales")])]

/-- What it says. -/
def repeatingHistory : List (String × Table.Recipe) :=
  [("o", ⟨"orders", []⟩), ("u", ⟨"users", []⟩),
    ("o", ⟨"sales", [("u.id", "o.user"), ("u.year", "o.year"), ("u.id", "o.owner")]⟩)]

/-- Repeated aliases and keys in a text, and what is read of them. -/
theorem read_as_added_repeating :
    read repeating.text = .ok (added repeatingHistory) ∧
      (added repeatingHistory).tables.keys = ["o", "u"] ∧
      (added repeatingHistory).tables.entries.map (·.2.on.entries)
        = [[("u.id", "o.owner"), ("u.year", "o.year")], []] ∧
      read (added repeatingHistory).toJson.text = .ok (added repeatingHistory) := by
  obtain ⟨hread, hback⟩ := read_as_added repeating.text (added repeatingHistory)
  refine ⟨hread.mpr ?_, by decide +kernel, by decide +kernel, hback⟩
  have hexact : repeating.Exact := by
    refine .object (List.forall_mem_cons.mpr ⟨.array ?_, List.forall_mem_cons.mpr ⟨.object ?_,
      List.forall_mem_singleton.mpr (.object (List.forall_mem_cons.mpr ⟨?_, ?_⟩))⟩⟩)
    · exact List.forall_mem_singleton.mpr (.string "orders")
    · exact List.forall_mem_singleton.mpr (.string "users")
    · exact Table.pairs_exact
        [("u.id", "o.user"), ("u.year", "o.year"), ("u.id", "o.owner")]
    · exact List.forall_mem_cons.mpr ⟨.null, List.forall_mem_singleton.mpr (.string "sales")⟩
  rw [Json.read_text hexact]
  refine ⟨rfl, repeatingHistory, ⟨_, rfl, ?_⟩, rfl⟩
  refine .cons ⟨rfl, .array (.absent rfl)⟩ (.cons ⟨rfl, .object ?_ rfl (.absent rfl)⟩
    (.cons ⟨rfl, .object ?_ rfl .present⟩ .nil))
  · simp [Json.doc, Json.memberDocs, Doc.isWhole]
  · simp [Json.doc, Json.memberDocs, Doc.isWhole, Json.membersWhole]

end Registry

end BoundSql
