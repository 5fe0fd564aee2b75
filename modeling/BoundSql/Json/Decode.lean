import BoundSql.Json.Doc
import BoundSql.Text.Visible

/-!
# Decoding documents

How a document becomes a value of a given kind. A decoder takes a document in
document order and reports the first problem that it meets, whether of the
grammar or of the kind. It also takes the number of containers that may still
be opened: text that nests them deeper is malformed.

A record is written as an object of its members or as an array of its fields
in their order. Members of other names are skipped, and only the grammar is
checked in them. A member must not be repeated. A choice is written as its
name, or as an object with its name for the only key.
-/

namespace BoundSql.Json

/-- What was found where something else was expected. -/
inductive Found where
  | null
  | bool (b : Bool)
  | int (n : Int)
  | float (x : Float)
  | string (s : String)
  | sequence
  | map
  | unitVariant

/-- Why a document could not be decoded. -/
inductive DecodeError where
  | malformed
  | wrongType (found : Found) (expected : String)
  | wrongValue (found : Found) (expected : String)
  | wrongLength (length : Nat) (expected : String)
  | missingField (name : String)
  | duplicateField (name : String)
  | unknownVariant (name : String) (known : List String)
  | noVariant (choice : String)
  | refused (reason : String)

/-- A word between backticks. -/
def ticked (word : String) : String := "`" ++ word ++ "`"

/-- How what was found is described. -/
def Found.text : Found → String
  | null => "null"
  | bool b => "boolean " ++ ticked (if b then "true" else "false")
  | int n => "integer " ++ ticked (toString n)
  | float x => "floating point " ++ ticked (Decimal.text floatStyle x)
  | string s => "string " ++ Text.visiblyQuoted s
  | sequence => "sequence"
  | map => "map"
  | unitVariant => "unit variant"

/-- A list of alternatives. -/
def alternatives : List String → String
  | [] => "no variants"
  | [a] => ticked a
  | [a, b] => ticked a ++ " or " ++ ticked b
  | all => "one of " ++ ", ".intercalate (all.map ticked)

/-- The wording of a decoding error. -/
def DecodeError.message : DecodeError → String
  | malformed => "<syntax>"
  | wrongType found expected => "invalid type: " ++ found.text ++ ", expected " ++ expected
  | wrongValue found expected => "invalid value: " ++ found.text ++ ", expected " ++ expected
  | wrongLength length expected =>
    "invalid length " ++ toString length ++ ", expected " ++ expected
  | missingField name => "missing field " ++ ticked name
  | duplicateField name => "duplicate field " ++ ticked name
  | unknownVariant name known =>
    "unknown variant " ++ ticked name ++ ", expected " ++ alternatives known
  | noVariant choice => "data did not match any variant of untagged enum " ++ choice
  | refused reason => reason

/-- What a decoder makes of a document. -/
abbrev Decoded := Except DecodeError

/-- Makes a value of a document in which so many containers may be opened. -/
abbrev Decoder (α : Type) := Nat → Doc → Decoded α

/-- The containers that may be nested in one text. -/
def maxDepth : Nat := 127

/-- Decodes a whole text: what follows the document may only be blanks. -/
def decode {α : Type} (decoder : Decoder α) (text : String) : Decoded α := do
  let (doc, alone) := read text
  let value ← decoder maxDepth doc
  if alone then pure value else throw .malformed

/-! ## Scalars -/

/-- The error for a document of another kind than expected. A scalar is read to its
end before it is reported. -/
def mismatch (expected : String) : Doc → DecodeError
  | .broken => .malformed
  | .null => .wrongType .null expected
  | .bool b => .wrongType (.bool b) expected
  | .number literal =>
    match literal.value? with
    | some (.int n) => .wrongType (.int n) expected
    | some (.float x) => .wrongType (.float x) expected
    | _ => .malformed
  | .string (some s) => .wrongType (.string s) expected
  | .string none => .malformed
  | .array _ => .wrongType .sequence expected
  | .object _ => .wrongType .map expected

/-- The text of a key. -/
def keyText : Option String → Decoded String
  | some key => pure key
  | none => throw .malformed

namespace Decoder

/-- Decodes a string. -/
def string : Decoder String
  | _, .string (some s) => pure s
  | _, doc => throw (mismatch "a string" doc)

/-- Decodes a truth value. -/
def boolean : Decoder Bool
  | _, .bool b => pure b
  | _, doc => throw (mismatch "a boolean" doc)

/-- Decodes a whole number of 64 bits without sign. -/
def word : Decoder UInt64
  | _, .number literal =>
    match literal.value? with
    | some (.int n) =>
      if 0 ≤ n then pure (UInt64.ofNat n.toNat) else throw (.wrongValue (.int n) "u64")
    | _ => throw (mismatch "u64" (.number literal))
  | _, doc => throw (mismatch "u64" doc)

/-- Decodes `null` as nothing, and anything else as the decoder does. -/
def optional {α : Type} (decoder : Decoder α) : Decoder (Option α)
  | _, .null => pure none
  | room, doc => some <$> decoder room doc

/-- Decodes a string that has to be accepted by a reader with errors of its own. -/
def readString {α : Type} (reader : String → Except String α) : Decoder α := fun room doc => do
  match reader (← string room doc) with
  | .ok value => pure value
  | .error reason => throw (.refused reason)

/-- Decodes any JSON value. -/
def anything : Decoder Json := fun room doc =>
  match doc.value? room with
  | some value => pure value
  | none => throw .malformed

/-! ## Containers -/

/-- Decodes each item of an array. -/
def sequence {α : Type} (decoder : Decoder α) : Decoder (List α)
  | 0, .array _ => throw .malformed
  | room + 1, .array items => items.mapM (decoder room)
  | _, doc => throw (mismatch "a sequence" doc)

/-- Decodes each member of an object, in document order. -/
def entries {α : Type} (decoder : Decoder α) : Decoder (List (String × α))
  | 0, .object _ => throw .malformed
  | room + 1, .object members => members.mapM fun (key, doc) => do
    let key ← keyText key
    pure (key, ← decoder room doc)
  | _, doc => throw (mismatch "a map" doc)

end Decoder

/-! ## Records -/

/-- What is known of the fields of a record. -/
structure Shape (φ : Type) where
  title : String
  /-- The fields in their order. -/
  fields : List φ
  label : φ → String
  required : φ → Bool

/-- Sets one field of a record. -/
abbrev FieldDecoder (φ α : Type) := Nat → α → φ → Doc → Decoded α

namespace Shape

variable {φ α : Type} [DecidableEq φ]

/-- The field of a name. -/
def field? (shape : Shape φ) (name : String) : Option φ :=
  shape.fields.find? fun field => shape.label field == name

/-- Takes the members of an object into a record; also gives the fields that were set. -/
def takeMembers (shape : Shape φ) (set : φ → Doc → α → Decoded α) :
    List φ → α → List (Option String × Doc) → Decoded (List φ × α)
  | seen, record, [] => pure (seen, record)
  | seen, record, (key, doc) :: rest => do
    let name ← keyText key
    match shape.field? name with
    | none =>
      if doc.isWhole then takeMembers shape set seen record rest else throw .malformed
    | some field =>
      if field ∈ seen then throw (.duplicateField name)
      else
        let record ← set field doc record
        takeMembers shape set (field :: seen) record rest

/-- Takes the items of an array into the fields of a record, in their order. The
fields that are left over must not be required, and no item may be left over. -/
def takeItems (shape : Shape φ) (set : φ → Doc → α → Decoded α) :
    List φ → Nat → α → List Doc → Decoded α
  | [], _, record, [] => pure record
  | [], _, _, _ :: _ => throw .malformed
  | field :: fields, taken, record, [] =>
    if (field :: fields).any shape.required then
      throw (.wrongLength taken
        (shape.title ++ " with " ++ toString shape.fields.length ++ " elements"))
    else pure record
  | field :: fields, taken, record, doc :: rest => do
    let record ← set field doc record
    takeItems shape set fields (taken + 1) record rest

/-- Decodes a record, whose fields start as `initial` has them. -/
def decoder (shape : Shape φ) (initial : α) (set : FieldDecoder φ α) : Decoder α
  | 0, .array _ => throw .malformed
  | 0, .object _ => throw .malformed
  | room + 1, .array items =>
    takeItems shape (fun field doc record => set room record field doc) shape.fields 0 initial items
  | room + 1, .object members => do
    let (seen, record) ← takeMembers shape (fun field doc record => set room record field doc)
      [] initial members
    match shape.fields.find? fun field => shape.required field && !decide (field ∈ seen) with
    | some field => throw (.missingField (shape.label field))
    | none => pure record
  | _, doc => throw (mismatch shape.title doc)

end Shape

/-! ## Choices -/

/-- What comes with the name of a choice: nothing, or a document in which so many
containers may be opened. -/
inductive Payload where
  | bare
  | content (room : Nat) (doc : Doc)

/-- Decodes a choice that carries nothing. -/
def Payload.nothing {α : Type} (value : α) : Payload → Decoded α
  | .bare => pure value
  | .content _ .null => pure value
  | .content _ doc => throw (mismatch "unit" doc)

/-- Decodes a choice that carries something. -/
def Payload.something {α : Type} (decoder : Decoder α) : Payload → Decoded α
  | .bare => throw (.wrongType .unitVariant "newtype variant")
  | .content room doc => decoder room doc

/-- Decodes one of several choices, given with their names. -/
def Decoder.choice {α : Type} (table : List (String × (Payload → Decoded α))) : Decoder α :=
  let pick (name : String) (payload : Payload) : Decoded α :=
    match table.find? fun row => row.1 == name with
    | some row => row.2 payload
    | none => throw (.unknownVariant name (table.map Prod.fst))
  fun room doc =>
    match room, doc with
    | _, .string (some name) => pick name .bare
    | room + 1, .object ((some name, doc) :: rest) => do
      let value ← pick name (.content room doc)
      if rest.isEmpty then pure value else throw .malformed
    | _, _ => throw .malformed

end BoundSql.Json
