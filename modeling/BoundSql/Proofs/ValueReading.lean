import BoundSql.Proofs.Decoding

/-!
# Two ways to read a value

A value is read from JSON text in one of two ways. Either the text is taken for a
value at once, which tries the forms of a value one after the other and refuses
objects, or it is first taken for any JSON value, which is then taken in whole,
objects as their text. The two differ on objects and on nothing else:

> `Value.readers_agree`: a text that is no JSON is refused by both, and a text
> without objects is read as the same value, whatever numbers it has. Where there
> is an object the one refuses the text, and the other has the object's text in
> its place and all other parts as they would be read alone.

Parts are found by the indices on the way to them, so an object that is found has
no other around it.
-/

namespace BoundSql

namespace Json

/-- A JSON value in which there is no object, however deep. -/
inductive ObjectFree : Json → Prop
  | null : ObjectFree .null
  | bool (b : Bool) : ObjectFree (.bool b)
  | int (n : Int) : ObjectFree (.int n)
  | float (x : Float) : ObjectFree (.float x)
  | string (s : String) : ObjectFree (.string s)
  | array {items : List Json} (free : ∀ item ∈ items, ObjectFree item) :
    ObjectFree (.array items)

/-- The part of a JSON value that is reached by indices into arrays. -/
def at? : List Nat → Json → Option Json
  | [], value => some value
  | index :: path, .array items => items[index]?.bind (at? path)
  | _ :: _, _ => none

mutual

/-- Where no path leads to an object there is none. -/
theorem objectFree_of_at? : ∀ (value : Json),
    (∀ path members, value.at? path ≠ some (.object members)) → value.ObjectFree
  | .null, _ => .null
  | .bool b, _ => .bool b
  | .int n, _ => .int n
  | .float x, _ => .float x
  | .string s, _ => .string s
  | .array items, h => by
    refine .array (objectFree_items_of_at? items fun index item hitem path members hat => ?_)
    -- A path from an item is one from the array, with the index of the item in front.
    refine h (index :: path) members ?_
    rw [at?, hitem]
    exact hat
  | .object members, h => absurd rfl (h [] members)

theorem objectFree_items_of_at? : ∀ (items : List Json),
    (∀ (index : Nat) (item : Json), items[index]? = some item →
      ∀ path members, item.at? path ≠ some (.object members)) →
    ∀ item ∈ items, item.ObjectFree
  | [], _ => fun _ hitem => (List.not_mem_nil hitem).elim
  | item :: rest, h => by
    rintro other (_ | ⟨_, hother⟩)
    · exact objectFree_of_at? item (h 0 item rfl)
    · exact objectFree_items_of_at? rest (fun index => h (index + 1)) other hother

end

end Json

namespace Value

/-- The part of a value that is reached by indices into lists. -/
def at? : List Nat → Value → Option Value
  | [], value => some value
  | index :: path, .list items => items[index]?.bind (at? path)
  | _ :: _, _ => none

/-! ## The forms of a value -/

/-- The form of `null`. -/
def nullForm? : Json → Option Value
  | .null => some null
  | _ => none

/-- The form of truth values. -/
def boolForm? : Json → Option Value
  | .bool b => some (bool b)
  | _ => none

/-- The form of whole numbers, which have to fit into 64 bits with a sign. -/
def wholeForm? : Json → Option Value
  | .int n =>
    if Int64.minValue.toInt ≤ n ∧ n ≤ Int64.maxValue.toInt then some (int (Int64.ofInt n))
    else none
  | _ => none

/-- The form of doubles, which takes whole numbers as well. -/
def floatForm? : Json → Option Value
  | .int n => some (float (Float.ofInt n))
  | .float x => some (float x)
  | _ => none

/-- The form of texts. -/
def textForm? : Json → Option Value
  | .string s => some (text s)
  | _ => none

/-- The forms of a value that is no list, in the order in which they are tried. -/
def scalarForms : List (Json → Option Value) :=
  [nullForm?, boolForm?, wholeForm?, floatForm?, textForm?]

mutual

/-- The first form that a JSON value has. A list comes last, and has one if its items do. -/
def firstForm? : Json → Option Value
  | .array items =>
    (scalarForms.findSome? fun form => form (.array items)).or ((itemForms? items).map list)
  | value => scalarForms.findSome? fun form => form value

/-- The first forms of all items. -/
def itemForms? : List Json → Option (List Value)
  | [] => some []
  | item :: rest => do
    let value ← firstForm? item
    let values ← itemForms? rest
    pure (value :: values)

end

/-- What is too large for a whole number is left to the next form. -/
theorem firstForm?_int (n : Int) : firstForm? (.int n) = some (ofInt n) := by
  by_cases hfits : Int64.minValue.toInt ≤ n ∧ n ≤ Int64.maxValue.toInt
  · have hwhole : wholeForm? (.int n) = some (int (Int64.ofInt n)) := if_pos hfits
    rw [ofInt, if_pos hfits, ← hwhole]
    simp only [firstForm?, scalarForms, List.findSome?_cons, nullForm?, boolForm?, hwhole]
  · have hwhole : wholeForm? (.int n) = none := if_neg hfits
    rw [ofInt, if_neg hfits]
    simp only [firstForm?, scalarForms, List.findSome?_cons, nullForm?, boolForm?, hwhole,
      floatForm?]

mutual

/-- Trying the forms in their order comes to a single look at the JSON value. -/
theorem firstForm?_eq : ∀ value : Json, firstForm? value = ofJson? value
  | .null => rfl
  | .bool _ => rfl
  | .int n => firstForm?_int n
  | .float _ => rfl
  | .string _ => rfl
  | .array items => by
    rw [firstForm?, itemForms?_eq items]
    rfl
  | .object _ => rfl

/-- The items of a list are tried one by one, like the list itself. -/
theorem itemForms?_eq : ∀ items : List Json, itemForms? items = itemsOfJson? items
  | [] => rfl
  | item :: rest => by rw [itemForms?, firstForm?_eq item, itemForms?_eq rest, itemsOfJson?]

end

/-! ## Values without objects -/

theorem itemsOfJson_eq_map (items : List Json) : itemsOfJson items = items.map ofJson := by
  induction items with
  | nil => rfl
  | cons item rest ih => rw [itemsOfJson, ih, List.map_cons]

/-- The items are read if each of them is. -/
theorem itemsOfJson?_eq {items : List Json}
    (h : ∀ item ∈ items, ofJson? item = some (ofJson item)) :
    itemsOfJson? items = some (itemsOfJson items) := by
  induction items with
  | nil => rfl
  | cons item rest ih =>
    obtain ⟨hitem, hrest⟩ := List.forall_mem_cons.mp h
    rw [itemsOfJson?, hitem, ih hrest]
    rfl

/-- Without objects both readings come to the same value. -/
theorem ofJson?_of_objectFree {value : Json} (h : value.ObjectFree) :
    ofJson? value = some (ofJson value) := by
  induction h with
  | null | bool _ | int _ | float _ | string _ => rfl
  | array _ ih =>
    rw [ofJson?, itemsOfJson?_eq ih]
    rfl

mutual

/-- Only what has no object is a value. -/
theorem objectFree_of_ofJson? : ∀ {value : Json} {taken : Value},
    ofJson? value = some taken → value.ObjectFree
  | .null, _, _ => .null
  | .bool b, _, _ => .bool b
  | .int n, _, _ => .int n
  | .float x, _, _ => .float x
  | .string s, _, _ => .string s
  | .array items, _, h => by
    obtain ⟨values, hvalues, -⟩ := Option.map_eq_some_iff.mp h
    exact .array (objectFree_of_itemsOfJson? hvalues)

/-- Items that are read have no objects in them. -/
theorem objectFree_of_itemsOfJson? : ∀ {items : List Json} {values : List Value},
    itemsOfJson? items = some values → ∀ item ∈ items, item.ObjectFree
  | [], _, _ => fun _ hitem => (List.not_mem_nil hitem).elim
  | item :: rest, _, h => by
    obtain ⟨value, hvalue, hothers⟩ := Option.bind_eq_some_iff.mp h
    obtain ⟨values, hvalues, -⟩ := Option.bind_eq_some_iff.mp hothers
    rintro other (_ | ⟨_, hother⟩)
    · exact objectFree_of_ofJson? hvalue
    · exact objectFree_of_itemsOfJson? hvalues other hother

end

/-! ## Parts -/

/-- Taking a JSON value in whole takes in each of its parts. -/
theorem at?_ofJson (path : List Nat) (value : Json) :
    (ofJson value).at? path = (value.at? path).map ofJson := by
  induction path generalizing value with
  | nil => rfl
  | cons index path ih =>
    cases value with
    | array items =>
      rw [ofJson, at?, Json.at?, itemsOfJson_eq_map, List.getElem?_map]
      cases items[index]? with
      | none => rfl
      | some item => exact ih item
    -- A number has no parts, whichever form of number it takes.
    | int n =>
      rw [ofJson, ofInt]
      split <;> rfl
    | _ => rfl

/-! ## Reading -/

/-- A text that is no JSON is no value. -/
theorem read_of_error {source : String} {error : Json.DecodeError}
    (h : Json.decode Json.Decoder.anything source = .error error) :
    ∃ other, read source = .error other := by
  cases hread : read source with
  | error other => exact ⟨other, rfl⟩
  | ok value =>
    obtain ⟨hdoc, halone⟩ := Json.decode_eq_ok_iff.mp hread
    obtain ⟨json, hjson, -⟩ := bind_eq_ok_iff.mp hdoc
    -- The value was made of a JSON value, so the text would have been read as that.
    rw [Json.decode_eq_ok_iff.mpr ⟨hjson, halone⟩] at h
    cases h

/-- Of any other text the value is that of its JSON value. -/
theorem read_of_ok {source : String} {json : Json}
    (h : Json.decode Json.Decoder.anything source = .ok json) :
    read source = match ofJson? json with
      | some value => .ok value
      | none => .error (.noVariant "FilterValue") := by
  obtain ⟨hdoc, halone⟩ := Json.decode_eq_ok_iff.mp h
  have hdecoder : decoder Json.maxDepth (Json.read source).1 = match ofJson? json with
      | some value => .ok value
      | none => .error (.noVariant "FilterValue") := by
    unfold decoder
    rw [hdoc]
    rfl
  have hread : read source = (decoder Json.maxDepth (Json.read source).1).bind fun value =>
      if (Json.read source).2 then .ok value else .error .malformed := rfl
  rw [hread, hdecoder, halone]
  cases ofJson? json <;> rfl

/-- **The two readings agree** on everything but objects. What is no JSON is refused by
both. Reading a text as a value is to try the forms of its JSON value, and without objects
that comes to the value that is taken in whole. Where there is an object the reading is
refused, and what is taken in whole has the text of each outermost object in its place,
while every part without objects is as it would be read alone. -/
theorem readers_agree (source : String) :
    (∀ error, Json.decode Json.Decoder.anything source = .error error →
        ∃ other, read source = .error other) ∧
      ∀ json, Json.decode Json.Decoder.anything source = .ok json →
        readAny source = .ok (ofJson json) ∧
          (∀ value, read source = .ok value ↔ firstForm? json = some value) ∧
          (json.ObjectFree → read source = .ok (ofJson json)) ∧
          (¬ json.ObjectFree →
            read source = .error (.noVariant "FilterValue") ∧
              ∃ path members, json.at? path = some (.object members)) ∧
          ∀ path part, json.at? path = some part →
            (part.ObjectFree → (ofJson json).at? path = firstForm? part) ∧
              ∀ members, part = .object members →
                (ofJson json).at? path = some (.text part.sorted.text) := by
  refine ⟨fun error => read_of_error, fun json hjson => ?_⟩
  have hread := read_of_ok hjson
  have hobject : ¬ json.ObjectFree → ofJson? json = none := fun hobject =>
    Option.eq_none_iff_forall_ne_some.mpr fun value hvalue =>
      hobject (objectFree_of_ofJson? hvalue)
  refine ⟨?_, fun value => ?_, fun hfree => ?_, fun hfound => ⟨?_, ?_⟩, fun path part hpart =>
    ⟨fun hfree => ?_, ?_⟩⟩
  · unfold readAny
    rw [hjson]
    rfl
  · rw [hread, firstForm?_eq]
    cases ofJson? json <;> simp
  · rw [hread, ofJson?_of_objectFree hfree]
  · rw [hread, hobject hfound]
  · by_contra hnone
    refine hfound (Json.objectFree_of_at? json fun path members hat => ?_)
    exact hnone ⟨path, members, hat⟩
  · rw [at?_ofJson, hpart, firstForm?_eq, ofJson?_of_objectFree hfree]
    rfl
  · rintro members rfl
    rw [at?_ofJson, hpart]
    rfl

/-- Whole numbers at the limits of 64 bits with a sign, the second of which is beyond them. -/
def longNumbers : Json :=
  .array [.int 9223372036854775807, .int 9223372036854775808, .array [.int (-9223372036854775808)]]

/-- An object beside a number, with its members in another order than that of their keys. -/
def numberAndObject : Json :=
  .array [.int 1, .object [("b", .null), ("a", .object [])]]

/-- Numbers that are too long for a whole number with a sign, and an object among the items. -/
theorem readers_agree_longNumbers :
    read longNumbers.text
        = .ok (list [int (Int64.ofInt 9223372036854775807),
            float (Float.ofInt 9223372036854775808),
            list [int (Int64.ofInt (-9223372036854775808))]]) ∧
      read numberAndObject.text = .error (.noVariant "FilterValue") ∧
      readAny numberAndObject.text
        = .ok (list [int (Int64.ofInt 1), text "\x7b\"a\":\x7b\x7d,\"b\":null\x7d"]) := by
  have hlong : longNumbers.Exact ∧ longNumbers.ObjectFree := by
    constructor
    · refine .array (List.forall_mem_cons.mpr ⟨.int (by decide) (by decide),
        List.forall_mem_cons.mpr ⟨.int (by decide) (by decide), ?_⟩⟩)
      exact List.forall_mem_singleton.mpr (.array
        (List.forall_mem_singleton.mpr (.int (by decide) (by decide))))
    · refine .array (List.forall_mem_cons.mpr ⟨.int _, List.forall_mem_cons.mpr ⟨.int _, ?_⟩⟩)
      exact List.forall_mem_singleton.mpr (.array (List.forall_mem_singleton.mpr (.int _)))
  have hobject : numberAndObject.Exact := by
    refine .array (List.forall_mem_cons.mpr ⟨.int (by decide) (by decide), ?_⟩)
    refine List.forall_mem_singleton.mpr (.object (List.forall_mem_cons.mpr ⟨.null, ?_⟩))
    exact List.forall_mem_singleton.mpr (.object nofun)
  have hfound : ¬ numberAndObject.ObjectFree := by
    intro hfree
    cases hfree with
    | array hitems => cases hitems _ (.tail _ (.head _))
  have hdecode : ∀ {json : Json}, json.Exact → json.depth ≤ Json.maxDepth →
      Json.decode Json.Decoder.anything json.text = .ok json := by
    intro json hexact hdepth
    rw [Json.decode_text hexact (Json.Decoder.anything_reads hexact), Json.within_of_le _ hdepth]
    rfl
  obtain ⟨-, -, hsame, -⟩ := (readers_agree longNumbers.text).2 longNumbers
    (hdecode hlong.1 (by decide))
  obtain ⟨hany, -, -, hrefused, -⟩ := (readers_agree numberAndObject.text).2 numberAndObject
    (hdecode hobject (by decide))
  have hmax : ofInt 9223372036854775807 = int (Int64.ofInt 9223372036854775807) :=
    if_pos (by decide)
  have hbeyond : ofInt 9223372036854775808 = float (Float.ofInt 9223372036854775808) :=
    if_neg (by decide)
  have hmin : ofInt (-9223372036854775808) = int (Int64.ofInt (-9223372036854775808)) :=
    if_pos (by decide)
  have hone : ofInt 1 = int (Int64.ofInt 1) := if_pos (by decide)
  have htext : (Json.object [("b", .null), ("a", .object [])]).sorted.text
      = "\x7b\"a\":\x7b\x7d,\"b\":null\x7d" := by decide +kernel
  refine ⟨(hsame hlong.2).trans ?_, (hrefused hfound).1, hany.trans ?_⟩
  · simp only [longNumbers, ofJson, itemsOfJson, hmax, hbeyond, hmin]
  · simp only [numberAndObject, ofJson, itemsOfJson, hone, htext]

end Value

end BoundSql
