import BoundSql.Proofs.Decoding
import Mathlib.Data.List.Nodup

/-!
# Records are set member by member

What the run over the members of an object comes to: nothing is wrong with any of
them, no field is repeated, and the fields are set in the order of their members.
Members of other names leave no trace. The run over the items of an array sets the
fields that come first. Both are said as an iff, so that what a record is decoded
to can be read off the row of its fields, and every way of failing is among them.
-/

namespace BoundSql

namespace Json.Shape

variable {φ α : Type} {shape : Shape φ}

/-- Sets fields one after the other. -/
def assign (set : φ → Doc → α → Decoded α) (record : α) (pairs : List (φ × Doc)) : Decoded α :=
  pairs.foldlM (fun record pair => set pair.1 pair.2 record) record

/-- Members are set one after the other. -/
theorem assign_cons_eq_ok_iff {set : φ → Doc → α → Decoded α} {record x : α} {field : φ} {doc : Doc}
    {pairs : List (φ × Doc)} :
    assign set record ((field, doc) :: pairs) = .ok x ↔
      ∃ next, set field doc record = .ok next ∧ assign set next pairs = .ok x := by
  rw [assign, List.foldlM_cons]
  exact bind_eq_ok_iff

/-- The members that set a field, with their fields. -/
def known (shape : Shape φ) (members : List (Option String × Doc)) : List (φ × Doc) :=
  members.filterMap fun member => (member.1.bind shape.field?).map fun field => (field, member.2)

/-- Nothing is wrong with a member apart from its field: its key is a string, and if it is of
another name its value is at least of the grammar. -/
def Passable (shape : Shape φ) (member : Option String × Doc) : Prop :=
  ∃ name, member.1 = some name ∧ (shape.field? name = none → member.2.isWhole = true)

/-- A member with the name of a field is known. -/
theorem known_cons_of_field {name : String} {field : φ} (h : shape.field? name = some field)
    (doc : Doc) (members : List (Option String × Doc)) :
    shape.known ((some name, doc) :: members) = (field, doc) :: shape.known members := by
  simp [known, h]

/-- A member with any other name is passed over. -/
theorem known_cons_of_none {name : String} (h : shape.field? name = none) (doc : Doc)
    (members : List (Option String × Doc)) :
    shape.known ((some name, doc) :: members) = shape.known members := by
  simp [known, h]

section Objects

variable [DecidableEq φ] {set : φ → Doc → α → Decoded α} {record x : α} {seen taken : List φ}
  {doc : Doc} {members : List (Option String × Doc)}

/-- A field is taken if it was not seen before and can be set. -/
theorem takeMembers_of_field {name : String} {field : φ} (h : shape.field? name = some field) :
    takeMembers shape set seen record ((some name, doc) :: members) = .ok (taken, x) ↔
      field ∉ seen ∧ ∃ next, set field doc record = .ok next ∧
        takeMembers shape set (field :: seen) next members = .ok (taken, x) := by
  rw [takeMembers, keyText, pure_bind, h]
  by_cases hseen : field ∈ seen
  · simp only [hseen, if_true, not_true_eq_false, false_and, iff_false]
    intro hrefused
    cases hrefused
  · simp only [hseen, if_false, not_false_eq_true, true_and]
    exact bind_eq_ok_iff

/-- A member that is no field has to be whole. -/
theorem takeMembers_of_other {name : String} (h : shape.field? name = none) :
    takeMembers shape set seen record ((some name, doc) :: members) = .ok (taken, x) ↔
      doc.isWhole = true ∧ takeMembers shape set seen record members = .ok (taken, x) := by
  rw [takeMembers, keyText, pure_bind, h]
  by_cases hwhole : doc.isWhole = true
  · simp [hwhole]
  · simp only [hwhole, Bool.false_eq_true, if_false, false_and, iff_false]
    intro hrefused
    cases hrefused

/-- The members of an object are taken if each of them is passable and no field is repeated,
and then the fields are set in the order of their members. -/
theorem takeMembers_eq_ok_iff (hseen : seen.Nodup) :
    takeMembers shape set seen record members = .ok (taken, x) ↔
      (∀ member ∈ members, shape.Passable member) ∧
        taken = ((shape.known members).map Prod.fst).reverse ++ seen ∧ taken.Nodup ∧
        assign set record (shape.known members) = .ok x := by
  induction members generalizing seen record with
  | nil =>
    constructor
    · intro h
      cases h
      exact ⟨nofun, rfl, hseen, rfl⟩
    · rintro ⟨-, rfl, -, hassign⟩
      cases hassign
      rfl
  | cons member members ih =>
    rw [List.forall_mem_cons]
    obtain ⟨_ | name, doc⟩ := member
    -- A key that is no string is refused at once.
    · refine iff_of_false nofun ?_
      rintro ⟨⟨⟨_, hkey, -⟩, -⟩, -⟩
      cases hkey
    · cases hfield : shape.field? name with
      | none =>
        have hpass : shape.Passable (some name, doc) ↔ doc.isWhole = true := by
          simp [Passable, hfield]
        rw [takeMembers_of_other hfield, known_cons_of_none hfield, hpass, ih hseen, and_assoc]
      | some field =>
        have hpass : shape.Passable (some name, doc) := ⟨name, rfl, by simp [hfield]⟩
        -- The field moves from the front of the members into those that were seen.
        have hswap : ((shape.known ((some name, doc) :: members)).map Prod.fst).reverse ++ seen
            = ((shape.known members).map Prod.fst).reverse ++ field :: seen := by
          simp [known_cons_of_field hfield]
        rw [takeMembers_of_field hfield, hswap, known_cons_of_field hfield, assign_cons_eq_ok_iff]
        constructor
        · rintro ⟨hfresh, next, hset, htake⟩
          obtain ⟨hothers, htaken, hnodup, hassign⟩ := (ih (hseen.cons hfresh)).mp htake
          exact ⟨⟨hpass, hothers⟩, htaken, hnodup, next, hset, hassign⟩
        · rintro ⟨⟨-, hothers⟩, htaken, hnodup, next, hset, hassign⟩
          have hfresh : (field :: seen).Nodup := (htaken ▸ hnodup).of_append_right
          exact ⟨(List.nodup_cons.mp hfresh).1, next, hset,
            (ih hfresh).mpr ⟨hothers, htaken, hnodup, hassign⟩⟩

/-- An object is decoded if its members may be taken and every required field is among them. -/
theorem decoder_object_eq_ok_iff {initial : α} {set : FieldDecoder φ α} {room : Nat} :
    shape.decoder initial set (room + 1) (.object members) = .ok x ↔
      (∀ member ∈ members, shape.Passable member) ∧
        ((shape.known members).map Prod.fst).Nodup ∧
        assign (fun field doc record => set room record field doc) initial (shape.known members)
          = .ok x ∧
        ∀ field ∈ shape.fields, shape.required field = true →
          field ∈ (shape.known members).map Prod.fst := by
  have hmissing : ∀ taken : List φ,
      (shape.fields.find? fun field => shape.required field && !decide (field ∈ taken)) = none ↔
        ∀ field ∈ shape.fields, shape.required field = true → field ∈ taken := by
    intro taken
    simp [List.find?_eq_none]
  have hdecoder : shape.decoder initial set (room + 1) (.object members) = .ok x ↔
      ∃ taken : List φ × α, takeMembers shape (fun field doc record => set room record field doc)
        [] initial members = .ok taken ∧
        (shape.fields.find? fun field =>
          shape.required field && !decide (field ∈ taken.1)) = none ∧ taken.2 = x := by
    rw [decoder]
    refine bind_eq_ok_iff.trans (exists_congr fun taken => and_congr_right fun _ => ?_)
    dsimp only
    split
    · next hfind => simp [hfind]
    · next hfind => simp [hfind, pure, Except.pure]
  rw [hdecoder]
  constructor
  · rintro ⟨⟨taken, record⟩, htake, hall, rfl⟩
    obtain ⟨hpass, htaken, hnodup, hassign⟩ := (takeMembers_eq_ok_iff .nil).mp htake
    rw [List.append_nil] at htaken
    subst htaken
    have hset := (hmissing _).mp hall
    simp only [List.mem_reverse] at hset
    exact ⟨hpass, List.nodup_reverse.mp hnodup, hassign, hset⟩
  · rintro ⟨hpass, hnodup, hassign, hset⟩
    refine ⟨(((shape.known members).map Prod.fst).reverse, x), (takeMembers_eq_ok_iff .nil).mpr
      ⟨hpass, (List.append_nil _).symm, List.nodup_reverse.mpr hnodup, hassign⟩, ?_, rfl⟩
    refine (hmissing _).mpr ?_
    simpa only [List.mem_reverse] using hset

end Objects

section Arrays

variable {set : φ → Doc → α → Decoded α} {x : α}

/-- The items of an array are taken if there are no more of them than fields and the other
fields are not required, and then the fields are set in their order. -/
theorem takeItems_eq_ok_iff (fields : List φ) (taken : Nat) (record : α) (docs : List Doc) :
    takeItems shape set fields taken record docs = .ok x ↔
      docs.length ≤ fields.length ∧
        (∀ field ∈ fields.drop docs.length, shape.required field = false) ∧
        assign set record (fields.zip docs) = .ok x := by
  induction fields generalizing taken record docs with
  | nil =>
    cases docs with
    | nil =>
      constructor
      · intro h
        exact ⟨Nat.le_refl 0, nofun, h⟩
      · intro h
        exact h.2.2
    | cons doc docs =>
      refine iff_of_false nofun ?_
      rintro ⟨hlength, -⟩
      cases hlength
  | cons field fields ih =>
    cases docs with
    | nil =>
      have hrequired : (field :: fields).any shape.required = false ↔
          ∀ other ∈ field :: fields, shape.required other = false := by
        simp
      rw [takeItems]
      -- Out of items: what is left over may not be required.
      split
      · next hany =>
        refine iff_of_false nofun ?_
        rintro ⟨-, hnone, -⟩
        rw [hrequired.mpr hnone] at hany
        cases hany
      · next hany =>
        constructor
        · intro h
          exact ⟨Nat.zero_le _, hrequired.mp (Bool.not_eq_true _ ▸ hany), h⟩
        · intro h
          exact h.2.2
    | cons doc docs =>
      have hstep : takeItems shape set (field :: fields) taken record (doc :: docs) = .ok x ↔
          ∃ next, set field doc record = .ok next ∧
            takeItems shape set fields (taken + 1) next docs = .ok x := bind_eq_ok_iff
      rw [hstep, List.zip_cons_cons, assign_cons_eq_ok_iff]
      simp only [ih, List.length_cons, Nat.add_le_add_iff_right, List.drop_succ_cons]
      constructor
      · rintro ⟨next, hset, hlength, hrequired, hassign⟩
        exact ⟨hlength, hrequired, next, hset, hassign⟩
      · rintro ⟨hlength, hrequired, next, hset, hassign⟩
        exact ⟨next, hset, hlength, hrequired, hassign⟩

/-- An array is decoded if its items may be taken. -/
theorem decoder_array_eq_ok_iff [DecidableEq φ] {initial : α} {set : FieldDecoder φ α} {room : Nat}
    {docs : List Doc} :
    shape.decoder initial set (room + 1) (.array docs) = .ok x ↔
      docs.length ≤ shape.fields.length ∧
        (∀ field ∈ shape.fields.drop docs.length, shape.required field = false) ∧
        assign (fun field doc record => set room record field doc) initial
          (shape.fields.zip docs) = .ok x :=
  takeItems_eq_ok_iff shape.fields 0 initial docs

end Arrays

end Json.Shape

end BoundSql
