import BoundSql.Criterion.Json
import BoundSql.Proofs.JsonText
import Mathlib.Data.List.Forall2

/-!
# Laws of decoders

A decoder reads a value back if it makes that value of the document it is
written as, and calls the document malformed exactly where too many containers
are nested in it. The law is proved once for each way of building a decoder:
scalars, texts with a reader of their own, what may be `null`, choices,
sequences and records. A record is written field by field, where a field that is
absent is left out, so the run over its members is an induction over its fields:
each member that is met is a field not seen before, and puts that field in its
place.
-/

namespace BoundSql

/-- A sequence ends well exactly when each of its steps does. -/
theorem bind_eq_ok_iff {ε α β : Type} {first : Except ε α} {next : α → Except ε β} {result : β} :
    first.bind next = .ok result ↔ ∃ value, first = .ok value ∧ next value = .ok result := by
  cases first with
  | error fault =>
    constructor
    · intro h
      cases h
    · intro hparts
      obtain ⟨value, h, -⟩ := hparts
      cases h
  | ok value =>
    constructor
    · intro h
      exact ⟨value, rfl, h⟩
    · intro hparts
      obtain ⟨value', h, hnext⟩ := hparts
      cases h
      exact hnext

/-- A row of steps ends well exactly when each of them does. -/
theorem mapM_eq_ok_iff {ε α β : Type} {step : α → Except ε β} {xs : List α} {ys : List β} :
    xs.mapM step = .ok ys ↔ List.Forall₂ (fun x y => step x = .ok y) xs ys := by
  induction xs generalizing ys with
  | nil =>
    rw [List.mapM_nil, List.forall₂_nil_left_iff]
    constructor
    · intro h
      cases h
      rfl
    · intro h
      rw [h]
      rfl
  | cons x xs ih =>
    have hstep : (x :: xs).mapM step = .ok ys ↔
        ∃ y, step x = .ok y ∧ ∃ others, xs.mapM step = .ok others ∧ y :: others = ys := by
      rw [List.mapM_cons]
      refine bind_eq_ok_iff.trans (exists_congr fun y => and_congr_right fun _ => ?_)
      refine bind_eq_ok_iff.trans (exists_congr fun others => and_congr_right fun _ => ?_)
      simp [pure, Except.pure]
    rw [hstep, List.forall₂_cons_left_iff]
    constructor
    · intro h
      obtain ⟨y, hy, others, hothers, hys⟩ := h
      exact ⟨y, others, hy, ih.mp hothers, hys.symm⟩
    · intro h
      obtain ⟨y, others, hy, hothers, hys⟩ := h
      exact ⟨y, hy, others, ih.mpr hothers, hys.symm⟩

namespace Json

mutual

/-- How deep containers are nested in a value. -/
def depth : Json → Nat
  | array items => itemsDepth items + 1
  | object members => membersDepth members + 1
  | _ => 0

/-- How deep containers are nested in the items of an array. -/
def itemsDepth : List Json → Nat
  | [] => 0
  | item :: rest => max item.depth (itemsDepth rest)

/-- How deep containers are nested in the members of an object. -/
def membersDepth : List (String × Json) → Nat
  | [] => 0
  | (_, value) :: rest => max value.depth (membersDepth rest)

end

/-- What comes of a document in which containers are nested as deep as in a value:
the result, unless too few of them may be opened. -/
def within {α : Type} (depth room : Nat) (x : α) : Decoded α :=
  if depth ≤ room then pure x else throw .malformed

/-- A decoder makes `x` of the document of a value, as far as that may be opened. -/
def Decoder.Reads {α : Type} (decoder : Decoder α) (value : Json) (x : α) : Prop :=
  ∀ room, decoder room value.doc = within value.depth room x

section Within

variable {α β : Type} {depth room : Nat}

/-- What is no deeper than there is room for is let through. -/
theorem within_of_le (x : α) (h : depth ≤ room) : within depth room x = pure x :=
  if_pos h

/-- What is deeper is refused, wherever it ends. -/
theorem within_of_lt (x : α) (h : room < depth) : within depth room x = throw .malformed :=
  if_neg (Nat.not_le.mpr h)

@[simp] theorem within_zero (room : Nat) (x : α) : within 0 room x = pure x :=
  within_of_le x (Nat.zero_le room)

/-- A container that may be opened leaves one less to open in it. -/
@[simp] theorem within_succ (depth room : Nat) (x : α) :
    within (depth + 1) (room + 1) x = within depth room x := by
  simp [within]

/-- Two parts after each other go as deep as the deeper of them. -/
theorem within_bind {f : α → Decoded β} {x : α} {y : β} {deep : Nat}
    (h : f x = within deep room y) :
    (within depth room x >>= f) = within (max depth deep) room y := by
  by_cases hfirst : depth ≤ room
  · have hmax : max depth deep ≤ room ↔ deep ≤ room := by omega
    rw [within_of_le _ hfirst, pure_bind, h]
    simp only [within, hmax]
  · rw [within_of_lt _ (by omega), within_of_lt _ (by omega)]
    rfl

/-- What is made of a result afterwards opens nothing. -/
theorem within_bind_pure {f : α → Decoded β} {x : α} {y : β} (h : f x = pure y) :
    (within depth room x >>= f) = within depth room y := by
  rw [within_bind (h.trans (within_zero room y).symm), Nat.max_zero]

end Within

/-! ## Any value -/

/-- A list of values fits if each of them does. -/
theorem itemValues?_itemDocs {items : List Json}
    (hitems : ∀ item ∈ items, ∀ room, item.doc.value? room
      = if item.depth ≤ room then some item else none) (room : Nat) :
    itemValues? room (itemDocs items)
      = if itemsDepth items ≤ room then some items else none := by
  induction items with
  | nil => simp [itemDocs, itemValues?, itemsDepth]
  | cons item items ih =>
    have hrest := ih fun other h => hitems other (.tail _ h)
    by_cases hitem : item.depth ≤ room
    · by_cases hall : itemsDepth items ≤ room <;>
        simp [itemDocs, itemValues?, itemsDepth, hitems item, hrest, hitem, hall, Nat.max_le]
    · simp [itemDocs, itemValues?, itemsDepth, hitems item, hitem, Nat.max_le]

/-- The members of an object fit if the value of each does. -/
theorem memberValues?_memberDocs {members : List (String × Json)}
    (hmembers : ∀ member ∈ members, ∀ room, member.2.doc.value? room
      = if member.2.depth ≤ room then some member.2 else none) (room : Nat) :
    memberValues? room (memberDocs members)
      = if membersDepth members ≤ room then some members else none := by
  induction members with
  | nil => simp [memberDocs, memberValues?, membersDepth]
  | cons member members ih =>
    have hrest := ih fun other h => hmembers other (.tail _ h)
    have hvalue := hmembers member List.mem_cons_self room
    by_cases hmember : member.2.depth ≤ room
    · by_cases hall : membersDepth members ≤ room <;>
        simp [memberDocs, memberValues?, membersDepth, hvalue, hrest, hmember, hall, Nat.max_le]
    · simp [memberDocs, memberValues?, membersDepth, hvalue, hmember, Nat.max_le]

/-- The document of a value has that value, as far as it may be opened. -/
theorem value?_doc {value : Json} (h : value.Exact) (room : Nat) :
    value.doc.value? room = if value.depth ≤ room then some value else none := by
  induction h generalizing room with
  | null => simp [doc, Doc.value?, depth]
  | bool b => simp [doc, Doc.value?, depth]
  | int low high => simp [doc, Doc.value?, depth, Literal.value?_ofInt low high]
  | string s => simp [doc, Doc.value?, depth]
  | array _ ih =>
    cases room with
    | zero => simp [doc, Doc.value?, depth]
    | succ room =>
      rw [doc, Doc.value?, itemValues?_itemDocs ih, depth]
      split <;> simp_all
  | object _ ih =>
    cases room with
    | zero => simp [doc, Doc.value?, depth]
    | succ room =>
      rw [doc, Doc.value?, memberValues?_memberDocs ih, depth]
      split <;> simp_all

/-- A value that reads back as such is read as it stands. -/
theorem Decoder.anything_reads {value : Json} (h : value.Exact) :
    Decoder.anything.Reads value value := by
  intro room
  rw [anything, value?_doc h]
  by_cases hdepth : value.depth ≤ room
  · rw [if_pos hdepth, within_of_le _ hdepth]
  · rw [if_neg hdepth, within_of_lt _ (by omega)]

/-! ## Scalars -/

theorem Decoder.string_reads (s : String) : Decoder.string.Reads (.string s) s := by
  intro room
  simp [string, doc, depth]

theorem Decoder.boolean_reads (b : Bool) : Decoder.boolean.Reads (.bool b) b := by
  intro room
  simp [boolean, doc, depth]

/-- A text is read back by what its reader makes of it. -/
theorem Decoder.readString_reads {α : Type} {reader : String → Except String α} {s : String}
    {x : α} (h : reader s = .ok x) : (Decoder.readString reader).Reads (.string s) x := by
  intro room
  rw [readString, Decoder.string_reads s room]
  simp [depth, h]

/-- A part that may be absent is read back from how it is written if it is there, and if
nothing is written as `null`. -/
theorem Decoder.optional_reads {α : Type} {decoder : Decoder α} {write : α → Json}
    (h : ∀ x, decoder.Reads (write x) x) (hnull : ∀ x, (write x).doc ≠ .null) {part : Option α}
    {value : Json} (hvalue : part.map write = some value) :
    (Decoder.optional decoder).Reads value part := by
  obtain ⟨x, rfl, rfl⟩ := Option.map_eq_some_iff.mp hvalue
  intro room
  have hdoc : Decoder.optional decoder room (write x).doc
      = some <$> decoder room (write x).doc := by
    have hwritten := hnull x
    cases hv : (write x).doc <;> simp_all [optional]
  rw [hdoc, h x room, map_eq_pure_bind]
  exact within_bind_pure rfl

/-- A choice that carries nothing is read back from its name. -/
theorem Decoder.choice_reads {α : Type} {table : List (String × (Payload → Decoded α))}
    {name : String} {x : α} {pick : Payload → Decoded α}
    (hfind : (table.find? fun row => row.1 == name) = some (name, pick))
    (hpick : pick .bare = pure x) :
    (Decoder.choice table).Reads (.string name) x := by
  intro room
  simp [choice, doc, hfind, hpick, depth]

/-! ## Sequences -/

/-- A decoder that reads each item of a list reads the whole of it. -/
theorem Decoder.mapM_itemDocs {α : Type} {decoder : Decoder α} {written : α → Json} (xs : List α)
    (h : ∀ x ∈ xs, decoder.Reads (written x) x) (room : Nat) :
    (itemDocs (xs.map written)).mapM (decoder room)
      = within (itemsDepth (xs.map written)) room xs := by
  induction xs with
  | nil => rfl
  | cons x xs ih =>
    have hrest := ih fun other hother => h other (.tail _ hother)
    rw [List.map_cons, itemDocs, itemsDepth, List.mapM_cons, h x List.mem_cons_self room]
    refine within_bind ?_
    rw [hrest]
    exact within_bind_pure rfl

/-- A sequence is read back if each of its items is. -/
theorem Decoder.sequence_reads {α : Type} {decoder : Decoder α} {written : α → Json} (xs : List α)
    (h : ∀ x ∈ xs, decoder.Reads (written x) x) :
    (Decoder.sequence decoder).Reads (.array (xs.map written)) xs := by
  intro room
  cases room with
  | zero => rfl
  | succ room =>
    rw [doc, sequence, Decoder.mapM_itemDocs xs h, depth, within_succ]

/-! ## Records -/

namespace Shape

variable {φ α : Type}

/-- The members that fields are written as, where absent ones are left out. -/
def written (shape : Shape φ) (value? : φ → Option Json) (fields : List φ) :
    List (String × Json) :=
  fields.flatMap fun field => member? (shape.label field) (value? field)

/-- The fields that are written. -/
def present (value? : φ → Option Json) (fields : List φ) : List φ :=
  fields.filter fun field => (value? field).isSome

/-- Setting a field from how it is written puts it in its place, and that is what
`place` does to a record. -/
def Places (set : FieldDecoder φ α) (value? : φ → Option Json) (place : φ → α → α) : Prop :=
  ∀ room record field value, value? field = some value →
    set room record field value.doc = within value.depth room (place field record)

section Fields

variable {shape : Shape φ} {value? : φ → Option Json} {field : φ} {fields : List φ}

/-- A member without a value is not written. -/
theorem written_of_none (h : value? field = none) :
    shape.written value? (field :: fields) = shape.written value? fields := by
  simp [written, member?, h]

/-- A member with a value is written before those that follow. -/
theorem written_of_some {value : Json} (h : value? field = some value) :
    shape.written value? (field :: fields)
      = (shape.label field, value) :: shape.written value? fields := by
  simp [written, member?, h]

theorem present_of_none (h : value? field = none) :
    present value? (field :: fields) = present value? fields := by
  simp [present, h]

theorem present_of_some {value : Json} (h : value? field = some value) :
    present value? (field :: fields) = field :: present value? fields := by
  simp [present, h]

/-- Members are exact if what stands for each field is. -/
theorem written_exact (h : ∀ field value, value? field = some value → value.Exact) :
    (object (shape.written value? fields)).Exact := by
  refine .object fun member hmember => ?_
  obtain ⟨field, -, hfield⟩ := List.mem_flatMap.mp hmember
  cases hv : value? field with
  | none => simp [member?, hv] at hfield
  | some value =>
    simp only [member?, hv, List.mem_singleton] at hfield
    exact hfield ▸ h field value hv

end Fields

variable [DecidableEq φ]

/-- The members of a record are taken one field at a time, each of them once. -/
theorem takeMembers_written {shape : Shape φ} {set : FieldDecoder φ α}
    {value? : φ → Option Json} {place : φ → α → α} (hset : Places set value? place) (room : Nat)
    (fields : List φ) (hlabel : ∀ field ∈ fields, shape.field? (shape.label field) = some field)
    (hnodup : fields.Nodup) (seen : List φ) (hseen : ∀ field ∈ fields, field ∉ seen) (record : α) :
    takeMembers shape (fun field doc record => set room record field doc) seen record
        (memberDocs (shape.written value? fields))
      = within (membersDepth (shape.written value? fields)) room
          ((present value? fields).reverse ++ seen,
            (present value? fields).foldl (fun record field => place field record) record) := by
  induction fields generalizing seen record with
  | nil => rfl
  | cons field fields ih =>
    obtain ⟨hfresh, hnodup⟩ := List.nodup_cons.mp hnodup
    have hlabels := fun other h => hlabel other (.tail _ h)
    cases hv : value? field with
    | none =>
      rw [written_of_none hv, present_of_none hv]
      exact ih hlabels hnodup seen (fun other h => hseen other (.tail _ h)) record
    | some value =>
      -- The others are taken with this field seen, which none of them is.
      have hrest := ih hlabels hnodup (field :: seen)
        (by
          rintro other hother (_ | ⟨_, hmem⟩)
          · exact hfresh hother
          · exact hseen other (.tail _ hother) hmem)
        (place field record)
      rw [written_of_some hv, present_of_some hv, memberDocs, membersDepth, takeMembers]
      simp only [keyText, pure_bind, hlabel field List.mem_cons_self,
        hseen field List.mem_cons_self, if_false, hset room record field value hv]
      refine within_bind ?_
      rw [hrest, List.reverse_cons, List.append_assoc]
      rfl

/-- A record is read back from its members if the fields that it calls for are
written and setting the written ones makes it of the initial record. -/
theorem decoder_reads {shape : Shape φ} {initial x : α} {set : FieldDecoder φ α}
    {value? : φ → Option Json} {place : φ → α → α} (hset : Places set value? place)
    (hlabel : ∀ field ∈ shape.fields, shape.field? (shape.label field) = some field)
    (hnodup : shape.fields.Nodup)
    (hrequired : ∀ field ∈ shape.fields, shape.required field = true → (value? field).isSome)
    (hx : (present value? shape.fields).foldl (fun record field => place field record) initial
      = x) :
    (shape.decoder initial set).Reads (.object (shape.written value? shape.fields)) x := by
  intro room
  cases room with
  | zero => rfl
  | succ room =>
    have htake := takeMembers_written hset room shape.fields hlabel hnodup [] (by simp) initial
    rw [List.append_nil] at htake
    have hall : (shape.fields.find? fun field =>
        shape.required field && !decide (field ∈ (present value? shape.fields).reverse))
          = none := by
      rw [List.find?_eq_none]
      intro field hfield
      simp only [present, List.mem_reverse, List.mem_filter, hfield, true_and]
      intro h
      obtain ⟨hcalled, habsent⟩ := Bool.and_eq_true_iff.mp h
      simp [hrequired field hfield hcalled] at habsent
    rw [doc, decoder, htake, depth, within_succ]
    refine within_bind_pure ?_
    simp only [hall, hx]

end Shape

/-! ## Texts -/

/-- A whole text is read back as far as its containers may be opened, and no text
that nests them deeper is taken for another value. -/
theorem decode_text {α : Type} {decoder : Decoder α} {value : Json} {x : α} (hexact : value.Exact)
    (h : decoder.Reads value x) : decode decoder value.text = within value.depth maxDepth x := by
  rw [decode, read_text hexact]
  simp only [h maxDepth]
  exact within_bind_pure rfl

/-- A text is decoded if its document is and nothing but blanks follows. -/
theorem decode_eq_ok_iff {α : Type} {decoder : Decoder α} {source : String} {x : α} :
    decode decoder source = .ok x ↔
      decoder maxDepth (read source).1 = .ok x ∧ (read source).2 = true := by
  have hdecode : decode decoder source = (decoder maxDepth (read source).1).bind fun value =>
      if (read source).2 then .ok value else .error .malformed := rfl
  rw [hdecode, bind_eq_ok_iff]
  constructor
  · intro h
    obtain ⟨value, hvalue, halone⟩ := h
    split at halone
    · next hclosed =>
      cases halone
      exact ⟨hvalue, hclosed⟩
    · cases halone
  · intro h
    obtain ⟨hvalue, halone⟩ := h
    exact ⟨x, hvalue, if_pos halone⟩

end Json

end BoundSql
