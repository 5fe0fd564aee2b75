import BoundSql.Proofs.Records
import BoundSql.Proofs.RoundTrip
import BoundSql.Proofs.Spelling
import Mathlib.Data.List.Nodup
import Mathlib.Data.List.Perm.Basic
import Mathlib.Logic.Function.Basic

/-!
# Fields in any order

A criterion is read from an object or from an array, member by member into one
record that is handed on. Still it comes out as if each field were read alone: a
member puts what its text stands for in its own place and leaves the others, so
after a run over members that repeat no field every field has what its text
stands for, and the fields without a text are as they were. The law is an iff,
proved by induction on the members that set a field. What is skipped only has to
be of the grammar, and an array sets the fields that come first. Null is a value
at the value; at the other optional fields it is what is there anyway.

> `Criterion.decoded_by_fields`: all texts that write out the same fields stand
> for the criterion that has them, or for none.
-/

namespace BoundSql

theorem toOption_eq_some_iff {ε α : Type} {result : Except ε α} {x : α} :
    result.toOption = some x ↔ result = .ok x := by
  cases result <;> simp [Except.toOption]

namespace Criterion

open Json (Doc Spelling MemberSpelling Shape)

/-! ## Setting a field -/

/-- Setting a member puts what its document stands for in its place. -/
theorem setMember_eq (room : Nat) (record : Criterion) (field : Member) (doc : Doc) :
    setMember room record field doc
      = (setMember room {} field doc).map fun criterion => criterion.place field record := by
  cases field with
  | column =>
    rw [setMember, setMember]
    cases Json.Decoder.string room doc <;> rfl
  | comparison =>
    rw [setMember, setMember]
    cases Json.Decoder.optional Comparison.decoder room doc <;> rfl
  | value =>
    rw [setMember, setMember]
    cases Value.decoder room doc <;> rfl
  | connective =>
    rw [setMember, setMember]
    cases Json.Decoder.optional Connective.decoder room doc <;> rfl
  | bindType =>
    rw [setMember, setMember]
    cases Json.Decoder.optional BindType.decoder room doc <;> rfl
  | grouping =>
    rw [setMember, setMember]
    cases Json.Decoder.optional Grouping.decoder room doc <;> rfl

/-- To set a member of a criterion is to read it alone and to put it in its place. -/
theorem setMember_eq_ok_iff {room : Nat} {record x : Criterion} {field : Member} {doc : Doc} :
    setMember room record field doc = .ok x ↔
      ∃ alone, setMember room {} field doc = .ok alone ∧ alone.place field record = x := by
  rw [setMember_eq]
  cases setMember room {} field doc with
  | error problem =>
    constructor
    · intro h
      cases h
    · rintro ⟨_, halone, -⟩
      cases halone
  | ok alone =>
    constructor
    · intro h
      exact ⟨alone, rfl, Except.ok.inj h⟩
    · rintro ⟨_, halone, rfl⟩
      cases halone
      rfl

/-- A member that is put in its place twice has been put there. -/
theorem place_place_self (criterion record x : Criterion) (field : Member) :
    (criterion.place field record).place field x = criterion.place field x := by
  cases field <;> rfl

/-- A member that is put in its place leaves the other members alone. -/
theorem place_place_of_ne (criterion record x : Criterion) {field other : Member}
    (h : other ≠ field) : (criterion.place field record).place other x = record.place other x := by
  cases field <;> cases other <;> first | rfl | exact absurd rfl h

/-- A criterion is told by its members. -/
theorem eq_of_place {record x : Criterion} (h : ∀ field, record.place field x = x) :
    record = x := by
  obtain ⟨column, comparison, value, connective, bindType, grouping⟩ := x
  have hcolumn := congrArg Criterion.column (h .column)
  have hcomparison := congrArg Criterion.comparison (h .comparison)
  have hvalue := congrArg Criterion.value (h .value)
  have hconnective := congrArg Criterion.connective (h .connective)
  have hbindType := congrArg Criterion.bindType (h .bindType)
  have hgrouping := congrArg Criterion.grouping (h .grouping)
  cases record
  simp_all [place]

/-- A criterion has at a member what a document stands for there. -/
def Has (room : Nat) (criterion : Criterion) (field : Member) (doc : Doc) : Prop :=
  ∃ alone, setMember room {} field doc = .ok alone ∧ alone.place field criterion = criterion

/-- Members that are set one after the other, each of them once, are what their documents
stand for, and the others are as they were. -/
theorem assign_eq_ok_iff {room : Nat} {x : Criterion} (pairs : List (Member × Doc))
    (hnodup : (pairs.map Prod.fst).Nodup) (record : Criterion) :
    Shape.assign (fun field doc record => setMember room record field doc) record pairs = .ok x ↔
      (∀ pair ∈ pairs, Has room x pair.1 pair.2) ∧
        ∀ field, field ∉ pairs.map Prod.fst → record.place field x = x := by
  induction pairs generalizing record with
  | nil =>
    constructor
    · intro h
      cases h
      refine ⟨nofun, fun field _ => ?_⟩
      cases field <;> rfl
    · intro h
      exact congrArg Except.ok (eq_of_place fun field => h.2 field nofun)
  | cons pair pairs ih =>
    obtain ⟨field, doc⟩ := pair
    obtain ⟨hfresh, hothers⟩ := List.nodup_cons.mp hnodup
    rw [Shape.assign_cons_eq_ok_iff, List.forall_mem_cons]
    constructor
    · rintro ⟨next, hset, hassign⟩
      obtain ⟨alone, halone, rfl⟩ := setMember_eq_ok_iff.mp hset
      obtain ⟨hhas, hleft⟩ := (ih hothers _).mp hassign
      have hplaced := hleft field hfresh
      rw [place_place_self] at hplaced
      refine ⟨⟨⟨alone, halone, hplaced⟩, hhas⟩, fun other hother => ?_⟩
      obtain ⟨hne, hnone⟩ := not_or.mp (mt List.mem_cons.mpr hother)
      have hsame := hleft other hnone
      rwa [place_place_of_ne _ _ _ hne] at hsame
    · rintro ⟨⟨⟨alone, halone, hplaced⟩, hhas⟩, hleft⟩
      refine ⟨alone.place field record, setMember_eq_ok_iff.mpr ⟨alone, halone, rfl⟩,
        (ih hothers _).mpr ⟨hhas, fun other hother => ?_⟩⟩
      by_cases hne : other = field
      · rw [hne, place_place_self, hplaced]
      · rw [place_place_of_ne _ _ _ hne]
        exact hleft other (List.not_mem_cons_of_ne_of_not_mem hne hother)

/-! ## Texts of fields -/

/-- The fields that members set, with the texts of their values. -/
def fieldTexts (members : List MemberSpelling) : List (Member × Spelling) :=
  members.filterMap fun member =>
    (shape.field? member.name).map fun field => (field, member.value)

/-- The fields that have a text, with their texts. -/
def given (texts : Member → Option Spelling) : List (Member × Spelling) :=
  shape.fields.filterMap fun field => (texts field).map fun text => (field, text)

/-- A text writes out the texts of fields: as an object that has them once each in any order,
among members of other names, or, if no field without a text comes before one with a text, as
an array. -/
inductive Writes (texts : Member → Option Spelling) (source : Spelling) : Prop
  | object (members : List MemberSpelling) (hfields : (fieldTexts members).Perm (given texts))
    (hsource : source.doc = (Spelling.object members).doc)
  | array (hfirst : (shape.fields.filter fun field => (texts field).isSome) <+: shape.fields)
    (hsource : source.doc = (Spelling.array (shape.fields.filterMap texts)).doc)

/-- The criterion that a text stands for where so many containers may be opened. -/
def decoded? (room : Nat) (source : Spelling) : Option Criterion :=
  (decoder room source.doc).toOption

/-- A criterion has at a field what a text stands for, or nothing if there is none. -/
def HasText (room : Nat) (criterion : Criterion) (field : Member) : Option Spelling → Prop
  | some text => Has room criterion field text.doc
  | none => ({} : Criterion).place field criterion = criterion

/-- A criterion has at every field what its text stands for, and at the others nothing. -/
def Matches (room : Nat) (texts : Member → Option Spelling) (criterion : Criterion) : Prop :=
  ∀ field, HasText room criterion field (texts field)

theorem mem_fields (field : Member) : field ∈ shape.fields := by
  cases field <;> decide

/-- A member is given if there is a text for it. -/
theorem mem_given_iff {texts : Member → Option Spelling} {field : Member} {text : Spelling} :
    (field, text) ∈ given texts ↔ texts field = some text := by
  simp [given, List.mem_filterMap, mem_fields]

theorem map_fst_given (texts : Member → Option Spelling) :
    (given texts).map Prod.fst = shape.fields.filter fun field => (texts field).isSome := by
  rw [given, List.map_filterMap, ← List.filterMap_eq_filter]
  refine List.filterMap_congr fun field _ => ?_
  cases hfield : texts field <;> simp [Option.guard, hfield]

/-- No member is given twice. -/
theorem nodup_given (texts : Member → Option Spelling) : ((given texts).map Prod.fst).Nodup := by
  rw [map_fst_given]
  exact List.Nodup.filter _ (by decide)

theorem not_mem_given_iff {texts : Member → Option Spelling} {field : Member} :
    field ∉ (given texts).map Prod.fst ↔ texts field = none := by
  rw [map_fst_given, List.mem_filter]
  simp [mem_fields]

/-- The fields that have a text may be set in any order, and then are what their texts stand
for alone. -/
theorem assign_given {room : Nat} {texts : Member → Option Spelling} {x : Criterion}
    {pairs : List (Member × Spelling)} (h : pairs.Perm (given texts)) :
    Shape.assign (fun field doc record => setMember room record field doc) {}
        (pairs.map fun pair => (pair.1, pair.2.doc)) = .ok x ↔ Matches room texts x := by
  have hfields : (pairs.map fun pair => (pair.1, pair.2.doc)).map Prod.fst
      = pairs.map Prod.fst := by
    rw [List.map_map]
    rfl
  have hperm : (pairs.map Prod.fst).Perm ((given texts).map Prod.fst) := h.map Prod.fst
  have hnodup : (pairs.map Prod.fst).Nodup := hperm.nodup_iff.mpr (nodup_given texts)
  rw [assign_eq_ok_iff _ (hfields ▸ hnodup), hfields, List.forall_mem_map]
  constructor
  · rintro ⟨hhas, hleft⟩ field
    cases htext : texts field with
    | some text => exact hhas (field, text) (h.mem_iff.mpr (mem_given_iff.mpr htext))
    | none => exact hleft field (mt hperm.mem_iff.mp (not_mem_given_iff.mpr htext))
  · intro hmatches
    refine ⟨fun pair hpair => ?_, fun field hfield => ?_⟩
    · have hhas := hmatches pair.1
      rwa [mem_given_iff.mp (h.mem_iff.mp hpair)] at hhas
    · have hleft := hmatches field
      rwa [not_mem_given_iff.mp (mt hperm.mem_iff.mpr hfield)] at hleft

/-- The members that are known are those whose names are fields, in the order of the text. -/
theorem known_entries (members : List MemberSpelling) :
    shape.known (members.map MemberSpelling.entry)
      = (fieldTexts members).map fun pair => (pair.1, pair.2.doc) := by
  rw [Shape.known, List.filterMap_map, fieldTexts, List.map_filterMap]
  refine List.filterMap_congr fun member _ => ?_
  cases hfield : shape.field? member.name <;> simp [MemberSpelling.entry, hfield]

/-- What is written out in an object is of the grammar, its keys are strings. -/
theorem passable_entry (member : MemberSpelling) : shape.Passable member.entry :=
  ⟨member.name, rfl, fun _ => member.value.isWhole_doc⟩

/-- The items of an array stand for the fields that have a text if these come first. -/
theorem zip_texts {texts : Member → Option Spelling} (fields : List Member)
    (h : (fields.filter fun field => (texts field).isSome) <+: fields) :
    fields.zip ((fields.filterMap texts).map Spelling.doc)
      = (fields.filterMap fun field => (texts field).map fun text => (field, text)).map
          fun pair => (pair.1, pair.2.doc) := by
  induction fields with
  | nil => rfl
  | cons field fields ih =>
    cases hfield : texts field with
    | none =>
      -- No field after one without a text has one.
      have hnone : fields.filter (fun field => (texts field).isSome) = [] := by
        rw [List.filter_cons_of_neg (by simp [hfield])] at h
        rcases hothers : fields.filter (fun field => (texts field).isSome) with _ | ⟨other, others⟩
        · rfl
        · rw [hothers] at h
          have hother : other ∈ fields.filter fun field => (texts field).isSome := by
            rw [hothers]
            exact List.mem_cons_self
          have hsome := (List.mem_filter.mp hother).2
          rw [(List.cons_prefix_cons.mp h).1, hfield] at hsome
          cases hsome
      have hempty : ∀ other ∈ fields, texts other = none := by
        simpa [List.filter_eq_nil_iff] using hnone
      have htexts : fields.filterMap texts = [] := List.filterMap_eq_nil_iff.mpr hempty
      have hpairs : fields.filterMap (fun field => (texts field).map fun text => (field, text))
          = [] := List.filterMap_eq_nil_iff.mpr fun other hother => by simp [hempty other hother]
      simp [hfield, htexts, hpairs]
    | some text =>
      have hrest : (fields.filter fun field => (texts field).isSome) <+: fields := by
        rw [List.filter_cons_of_pos (by simp [hfield])] at h
        exact (List.prefix_cons_inj field).mp h
      simp [hfield, ih hrest]

/-- A text that writes out fields stands for the criterion that has them. -/
theorem decoded?_eq_some_iff {room : Nat} {texts : Member → Option Spelling} {source : Spelling}
    (h : Writes texts source) {criterion : Criterion} :
    decoded? (room + 1) source = some criterion ↔ Matches room texts criterion := by
  rw [decoded?, toOption_eq_some_iff, decoder]
  cases h with
  | object members hfields hsource =>
    rw [hsource, Spelling.doc_object, Shape.decoder_object_eq_ok_iff, known_entries,
      assign_given hfields]
    constructor
    · intro h
      exact h.2.2.1
    · intro h
      refine ⟨List.forall_mem_map.mpr fun member _ => passable_entry member, ?_, h, nofun⟩
      rw [List.map_map]
      exact (hfields.map Prod.fst).nodup_iff.mpr (nodup_given texts)
  | array hfirst hsource =>
    have hlength : ((shape.fields.filterMap texts).map Spelling.doc).length
        ≤ shape.fields.length := by
      rw [List.length_map]
      exact List.length_filterMap_le _ _
    rw [hsource, Spelling.doc_array, Shape.decoder_array_eq_ok_iff, zip_texts _ hfirst]
    constructor
    · intro h
      exact (assign_given (.refl _)).mp h.2.2
    · intro h
      exact ⟨hlength, fun _ _ => rfl, (assign_given (.refl _)).mpr h⟩

/-- No container is opened where none may be. -/
theorem decoded?_zero {texts : Member → Option Spelling} {source : Spelling}
    (h : Writes texts source) : decoded? 0 source = none := by
  cases h with
  | object members hfields hsource =>
    rw [decoded?, hsource, Spelling.doc_object]
    rfl
  | array hfirst hsource =>
    rw [decoded?, hsource, Spelling.doc_array]
    rfl

/-- What is read from a text can be told member by member. -/
theorem exists_matches {room : Nat} {texts : Member → Option Spelling} {source : Spelling}
    (h : Writes texts source) {criterion : Criterion}
    (hcriterion : decoded? room source = some criterion) :
    ∃ inside, Matches inside texts criterion := by
  cases room with
  | zero =>
    rw [decoded?_zero h] at hcriterion
    cases hcriterion
  | succ room => exact ⟨room, (decoded?_eq_some_iff h).mp hcriterion⟩

/-- No criterion has a field twice. -/
theorem decoded?_of_repeated {room : Nat} {source : Spelling} {members : List MemberSpelling}
    (hsource : source.doc = (Spelling.object members).doc)
    (hrepeated : ¬ ((fieldTexts members).map Prod.fst).Nodup) : decoded? room source = none := by
  refine Option.eq_none_iff_forall_ne_some.mpr fun criterion hcriterion => hrepeated ?_
  rw [decoded?, toOption_eq_some_iff, hsource, Spelling.doc_object] at hcriterion
  cases room with
  | zero => cases hcriterion
  | succ room =>
    obtain ⟨-, hnodup, -⟩ := Shape.decoder_object_eq_ok_iff.mp hcriterion
    rwa [known_entries, List.map_map] at hnodup

/-- All texts that write out the same fields stand for the same. -/
theorem decoded?_eq {room : Nat} {texts : Member → Option Spelling} {source other : Spelling}
    (hsource : Writes texts source) (hother : Writes texts other) :
    decoded? room source = decoded? room other := by
  cases room with
  | zero => rw [decoded?_zero hsource, decoded?_zero hother]
  | succ room =>
    refine Option.ext fun criterion => ?_
    rw [decoded?_eq_some_iff hsource, decoded?_eq_some_iff hother]

/-! ## Null -/

/-- A value is there as soon as it has a text, null or not. -/
theorem has_value_iff {room : Nat} {criterion : Criterion} {doc : Doc} :
    Has room criterion .value doc ↔
      ∃ value, Value.decoder room doc = .ok value ∧ criterion.value = some value := by
  rw [Has, setMember]
  constructor
  · rintro ⟨alone, halone, hplaced⟩
    obtain ⟨value, hvalue, hmake⟩ := bind_eq_ok_iff.mp halone
    cases hmake
    exact ⟨value, hvalue, (congrArg Criterion.value hplaced).symm⟩
  · rintro ⟨value, hvalue, hsome⟩
    refine ⟨{ value := some value }, bind_eq_ok_iff.mpr ⟨value, hvalue, rfl⟩, ?_⟩
    rw [place, ← hsome]

/-- A value is absent just where there is no text for it. -/
theorem HasText.value_eq_none_iff {room : Nat} {criterion : Criterion} {text : Option Spelling}
    (h : HasText room criterion .value text) : criterion.value = none ↔ text = none := by
  cases text with
  | none => exact iff_of_true (congrArg Criterion.value h).symm rfl
  | some text =>
    obtain ⟨value, -, hsome⟩ := has_value_iff.mp h
    simp [hsome]

/-- At an optional field null stands for nothing. -/
theorem has_null_iff {room : Nat} {criterion : Criterion} {field : Member}
    (hcolumn : field ≠ .column) (hvalue : field ≠ .value) :
    Has room criterion field .null ↔ ({} : Criterion).place field criterion = criterion := by
  have hset : setMember room {} field .null = .ok {} := by
    cases field with
    | column => exact absurd rfl hcolumn
    | value => exact absurd rfl hvalue
    | comparison | connective | bindType | grouping => rfl
  rw [Has, hset]
  constructor
  · rintro ⟨alone, halone, hplaced⟩
    cases halone
    exact hplaced
  · intro hplaced
    exact ⟨{}, rfl, hplaced⟩

/-- So it may as well be left out. -/
theorem matches_update_iff {room : Nat} {texts : Member → Option Spelling} {criterion : Criterion}
    {field : Member} {text : Spelling} (hcolumn : field ≠ .column) (hvalue : field ≠ .value)
    (htext : texts field = some text) (hnull : text.doc = .null) :
    Matches room (Function.update texts field none) criterion ↔ Matches room texts criterion := by
  refine forall_congr' fun other => ?_
  by_cases hne : other = field
  · subst hne
    rw [Function.update_self, htext, HasText, HasText, hnull]
    exact (has_null_iff hcolumn hvalue).symm
  · rw [Function.update_of_ne hne]

/-! ## Lists -/

/-- A list of criteria is read like any other sequence. -/
theorem readList_eq_ok_iff {source : String} {criteria : List Criterion} :
    readList source = .ok criteria ↔
      Json.decode (Json.Decoder.sequence decoder) source = .ok criteria := by
  rw [readList]
  cases Json.decode (Json.Decoder.sequence decoder) source <;> simp

/-- A criteria list is read criterion by criterion, inside of its own brackets. -/
theorem readList_array_eq_ok_iff {sources : List Spelling} {criteria : List Criterion} :
    readList (Spelling.array sources).text = .ok criteria ↔
      sources.map (decoded? 126) = criteria.map some := by
  have hread : Json.read (Spelling.array sources).text
      = (.array (sources.map Spelling.doc), true) := Json.read_arrayText sources
  have hitems : readList (Spelling.array sources).text = .ok criteria ↔
      (sources.map Spelling.doc).mapM (decoder 126) = .ok criteria := by
    rw [readList_eq_ok_iff, Json.decode_eq_ok_iff, hread]
    exact and_iff_left rfl
  rw [hitems, mapM_eq_ok_iff, List.forall₂_map_left_iff, ← List.forall₂_eq_eq_eq,
    List.forall₂_map_left_iff, List.forall₂_map_right_iff]
  have hitem : (fun (source : Spelling) (criterion : Criterion) =>
      decoder 126 source.doc = .ok criterion)
        = fun source criterion => decoded? 126 source = some criterion := by
    funext source criterion
    rw [decoded?, toOption_eq_some_iff]
  rw [hitem]

/-! ## Fields -/

/-- **What a criterion is decoded to depends only on which field has which text.** All texts that
write out the same fields stand for the criterion that has at each of these what the text of the
field stands for alone, and nothing at the others; there is none for any of them if one of the
texts cannot be taken. A field that is repeated is refused. There is no value exactly if the
value has no text: null is a value, while at every other optional field it may be left out. -/
theorem decoded_by_fields (texts : Member → Option Spelling) (room : Nat) :
    (∀ source other, Writes texts source → Writes texts other →
        decoded? room source = decoded? room other) ∧
      (∀ source criterion, Writes texts source →
        (decoded? (room + 1) source = some criterion ↔ Matches room texts criterion)) ∧
      (∀ source members, source.doc = (Spelling.object members).doc →
        ¬ ((fieldTexts members).map Prod.fst).Nodup → decoded? room source = none) ∧
      (∀ source criterion, Writes texts source → decoded? room source = some criterion →
        (criterion.value = none ↔ texts .value = none) ∧
          ∀ text, texts .value = some text → text.doc = .null → criterion.value = some .null) ∧
      ∀ field text, field ≠ .column → field ≠ .value → texts field = some text →
        text.doc = .null → ∀ source other, Writes texts source →
          Writes (Function.update texts field none) other →
            decoded? room source = decoded? room other := by
  refine ⟨fun source other => decoded?_eq, fun source criterion hsource =>
    decoded?_eq_some_iff hsource, ?_, ?_, ?_⟩
  · intro source members hsource hrepeated
    exact decoded?_of_repeated hsource hrepeated
  · intro source criterion hsource hcriterion
    obtain ⟨inside, hmatches⟩ := exists_matches hsource hcriterion
    refine ⟨(hmatches .value).value_eq_none_iff, fun text htext hnull => ?_⟩
    have htaken := hmatches .value
    rw [htext, HasText, hnull] at htaken
    obtain ⟨value, hvalue, hsome⟩ := has_value_iff.mp htaken
    cases hvalue
    exact hsome
  · intro field text hcolumn hvalue htext hnull source other hsource hother
    cases room with
    | zero => rw [decoded?_zero hsource, decoded?_zero hother]
    | succ room =>
      refine Option.ext fun criterion => ?_
      rw [decoded?_eq_some_iff hsource, decoded?_eq_some_iff hother,
        matches_update_iff hcolumn hvalue htext hnull]

/-- Texts for four fields, of which two are null. -/
def atLeastNull : Member → Option Spelling
  | .column => some ⟨"\"a\"", rfl⟩
  | .comparison => some ⟨" \">\\u003d\"", rfl⟩
  | .value => some ⟨"null", rfl⟩
  | .bindType => some ⟨"null", rfl⟩
  | _ => none

/-- An object with these texts, backwards and among other members. -/
def backwards : List MemberSpelling :=
  [⟨⟨"\"type\"", rfl⟩, "type", rfl, ⟨"null", rfl⟩⟩,
    ⟨⟨"\"column \"", rfl⟩, "column ", rfl, ⟨"[1e999,[]]", by decide +kernel⟩⟩,
    ⟨⟨"\"value\"\t", rfl⟩, "value", rfl, ⟨"null", rfl⟩⟩,
    ⟨⟨"\"operator\"", rfl⟩, "operator", rfl, ⟨" \">\\u003d\"", rfl⟩⟩,
    ⟨⟨"\"\\u0063olumn\"", rfl⟩, "column", rfl, ⟨"\"a\"", rfl⟩⟩]

/-- The first three of these texts, in the order of their fields. -/
def inOrder : List Spelling :=
  [⟨"\"a\"", rfl⟩, ⟨" \">\\u003d\"", rfl⟩, ⟨"null", rfl⟩]

/-- The criterion that has these texts at its fields. -/
def atLeast : Criterion :=
  { column := "a", comparison := some .greaterEqual, value := some .null }

/-- The criterion that these texts tell of, at any depth. -/
theorem matches_atLeast (room : Nat) : Matches room atLeastNull atLeast := by
  intro field
  cases field with
  | column => exact ⟨{ column := "a" }, rfl, rfl⟩
  | comparison => exact ⟨{ comparison := some .greaterEqual }, rfl, rfl⟩
  | value => exact ⟨{ value := some .null }, rfl, rfl⟩
  | bindType => exact ⟨{}, rfl, rfl⟩
  | connective | grouping => rfl

/-- The members backwards, as an array, and all of them twice. -/
theorem decoded_by_fields_atLeastNull :
    decoded? 126 (Spelling.object backwards) = some atLeast ∧
      decoded? 126 (Spelling.array inOrder) = some atLeast ∧
      decoded? 126 (Spelling.object (backwards ++ backwards)) = none ∧
      readList (Spelling.array [Spelling.object backwards, Spelling.array inOrder]).text
        = .ok [atLeast, atLeast] := by
  have hobject : Writes atLeastNull (Spelling.object backwards) :=
    .object backwards (List.reverse_perm (given atLeastNull)) rfl
  have harray : Writes (Function.update atLeastNull .bindType none) (Spelling.array inOrder) :=
    .array (by decide) rfl
  obtain ⟨-, hmatches, -⟩ := decoded_by_fields atLeastNull 125
  obtain ⟨-, -, hrepeated, -, hnull⟩ := decoded_by_fields atLeastNull 126
  have hbackwards : decoded? 126 (Spelling.object backwards) = some atLeast :=
    (hmatches _ _ hobject).mpr (matches_atLeast 125)
  have hinOrder : decoded? 126 (Spelling.array inOrder) = some atLeast :=
    (hnull .bindType _ (by decide) (by decide) rfl rfl _ _ hobject harray).symm.trans hbackwards
  refine ⟨hbackwards, hinOrder, hrepeated _ _ rfl (by decide), ?_⟩
  refine readList_array_eq_ok_iff.mpr ?_
  rw [List.map_cons, List.map_cons, hbackwards, hinOrder]
  rfl

end Criterion

end BoundSql
