import BoundSql.Json.Number
import BoundSql.Text.Hex

/-!
# JSON documents

A `Doc` is the tree of a JSON text as far as the grammar carries. Where the
text stops being JSON the tree ends in a `broken` leaf, after which nothing
is read. So one tree serves every question in which the first problem from
the left decides: whoever walks it in document order meets the problems of
the grammar in their places among all others, and whoever takes a container
to its end has passed its `broken` leaf, if there is one.

Numbers and strings are only checked against the grammar here: a literal may
be out of range, and a string may hold escapes that pair up to no character,
in which case its content is `none`.
-/

namespace BoundSql.Json

/-- The tree of a text. Where a key is no string it is `none` and its value is `broken`;
otherwise it is kept like the content of a string. -/
inductive Doc where
  | broken
  | null
  | bool (b : Bool)
  | number (literal : Literal)
  | string (content : Option String)
  | array (items : List Doc)
  | object (members : List (Option String × Doc))
  deriving Inhabited

/-! ## Characters -/

/-- The characters that may stand between the parts of a document. -/
def isSpace (c : Char) : Bool :=
  c == ' ' || c == '\n' || c == '\t' || c == '\r'

/-- The text without the blanks in front of it. -/
def dropSpaces (text : List Char) : List Char :=
  text.dropWhile isSpace

/-- The character that a short escape stands for. -/
def shortEscape? (c : Char) : Option Char :=
  if c = '\x22' then some '\x22'
  else if c = '\\' then some '\\'
  else if c = '/' then some '/'
  else if c = 'b' then some '\x08'
  else if c = 'f' then some '\x0c'
  else if c = 'n' then some '\n'
  else if c = 'r' then some '\r'
  else if c = 't' then some '\t'
  else none

/-! ## Strings -/

/-- What a string is made of: characters, and 16-bit units given by their number. -/
inductive Piece where
  | char (c : Char)
  | unit (n : Nat)
  deriving DecidableEq, Repr

/-- Reads the pieces of a string up to its closing quote; also gives what follows it. -/
def readPieces : List Char → Option (List Piece × List Char)
  | [] => none
  | '\\' :: 'u' :: a :: b :: c :: d :: rest => do
    let n ← Text.hexNumber? [a, b, c, d]
    let (pieces, rest) ← readPieces rest
    pure (.unit n :: pieces, rest)
  | '\\' :: e :: rest => do
    let c ← shortEscape? e
    let (pieces, rest) ← readPieces rest
    pure (.char c :: pieces, rest)
  | c :: rest =>
    if c = '\x22' then some ([], rest)
    else if c = '\\' ∨ c.toNat < 0x20 then none
    else do
      let (pieces, rest) ← readPieces rest
      pure (.char c :: pieces, rest)

/-- Whether a unit is the first of a pair. -/
def isLeading (n : Nat) : Bool := 0xD800 ≤ n && n ≤ 0xDBFF

/-- Whether a unit is the second of a pair. -/
def isTrailing (n : Nat) : Bool := 0xDC00 ≤ n && n ≤ 0xDFFF

/-- The character that a pair of units stands for. -/
def pairChar (high low : Nat) : Char :=
  Char.ofNat (0x10000 + (high - 0xD800) * 0x400 + (low - 0xDC00))

/-- The characters of a string, unless a unit lacks its partner. -/
def joinPieces : List Piece → Option (List Char)
  | [] => some []
  | .char c :: rest => (joinPieces rest).map (c :: ·)
  | .unit high :: .unit low :: rest =>
    if isLeading high then
      if isTrailing low then (joinPieces rest).map (pairChar high low :: ·) else none
    else if isTrailing high then none
    else (joinPieces (.unit low :: rest)).map (Char.ofNat high :: ·)
  | .unit n :: rest =>
    if isLeading n || isTrailing n then none
    else (joinPieces rest).map (Char.ofNat n :: ·)

/-- The content of a string whose pieces have been read. -/
def contentOfPieces (pieces : List Piece) : Option String :=
  (joinPieces pieces).map String.ofList

/-! ## Numbers -/

/-- Reads digits, of which there may be none. -/
def readDigits (text : List Char) : List Char × List Char :=
  (text.takeWhile Char.isDigit, text.dropWhile Char.isDigit)

/-- The value of a list of digits. -/
def digitsValue (digits : List Char) : Nat :=
  digits.foldl (fun n c => 10 * n + digitValue c) 0

/-- Reads the digits before the point: a single zero, or no zero in front. -/
def readWhole (text : List Char) : Option (List Char × List Char) :=
  match readDigits text with
  | ([], _) => none
  | ('0' :: _ :: _, _) => none
  | parts => some parts

/-- Reads a fraction if there is a point, which calls for a digit after it. -/
def readFraction : List Char → Option (List Char × List Char)
  | '.' :: text =>
    match readDigits text with
    | ([], _) => none
    | parts => some parts
  | text => some ([], text)

/-- Reads the sign of a power of ten: whether it is negative, and the rest. -/
def readSign : List Char → Bool × List Char
  | '-' :: text => (true, text)
  | '+' :: text => (false, text)
  | text => (false, text)

/-- Reads a power of ten if there is a mark, which calls for a digit after it. -/
def readPower : List Char → Option (Option Int × List Char)
  | [] => some (none, [])
  | mark :: text =>
    if mark = 'e' ∨ mark = 'E' then
      let (negative, text) := readSign text
      match readDigits text with
      | ([], _) => none
      | (digits, text) =>
        let n : Int := digitsValue digits
        some (some (if negative then -n else n), text)
    else some (none, mark :: text)

/-- Reads a number literal after its sign. -/
def readLiteral (negative : Bool) (text : List Char) : Option (Literal × List Char) := do
  let (whole, text) ← readWhole text
  let (fraction, text) ← readFraction text
  let (power, text) ← readPower text
  pure (⟨negative, whole, fraction, power⟩, text)

/-! ## Values -/

/-- A document and what follows it, unless reading stopped in it. -/
abbrev Reading := Doc × Option (List Char)

/-- Reading stops here. -/
def Reading.stopped : Reading := (.broken, none)

/-- Reads a number, if the text starts with one. -/
def readNumber (text : List Char) : Reading :=
  let read := match text with
    | '-' :: text => readLiteral true text
    | text => readLiteral false text
  match read with
  | some (literal, rest) => (.number literal, some rest)
  | none => .stopped

/-- Reads a value that is no container. -/
def readScalar : List Char → Reading
  | 'n' :: 'u' :: 'l' :: 'l' :: rest => (.null, some rest)
  | 't' :: 'r' :: 'u' :: 'e' :: rest => (.bool true, some rest)
  | 'f' :: 'a' :: 'l' :: 's' :: 'e' :: rest => (.bool false, some rest)
  | '\x22' :: text =>
    match readPieces text with
    | some (pieces, rest) => (.string (contentOfPieces pieces), some rest)
    | none => .stopped
  | text => readNumber text

mutual

/-- Reads a value after blanks. Each call takes from the fuel, of which twice the
length of the text is enough. -/
def readValue : Nat → List Char → Reading
  | 0, _ => .stopped
  | fuel + 1, text =>
    match dropSpaces text with
    | '[' :: text =>
      match dropSpaces text with
      | ']' :: rest => (.array [], some rest)
      | text =>
        let (items, rest) := readItems fuel text
        (.array items, rest)
    | '{' :: text =>
      match dropSpaces text with
      | '}' :: rest => (.object [], some rest)
      | text =>
        let (members, rest) := readMembers fuel text
        (.object members, rest)
    | text => readScalar text

/-- Reads the items of an array, of which there is at least one, and its end. -/
def readItems : Nat → List Char → List Doc × Option (List Char)
  | 0, _ => ([.broken], none)
  | fuel + 1, text =>
    match readValue fuel text with
    | (item, none) => ([item], none)
    | (item, some text) =>
      match dropSpaces text with
      | ']' :: rest => ([item], some rest)
      | ',' :: text =>
        let (items, rest) := readItems fuel text
        (item :: items, rest)
      | _ => ([item, .broken], none)

/-- Reads the members of an object, of which there is at least one, and its end. -/
def readMembers : Nat → List Char → List (Option String × Doc) × Option (List Char)
  | 0, _ => ([(none, .broken)], none)
  | fuel + 1, text =>
    match dropSpaces text with
    | '\x22' :: text =>
      match readPieces text with
      | none => ([(none, .broken)], none)
      | some (pieces, text) =>
        let key := contentOfPieces pieces
        match dropSpaces text with
        | ':' :: text =>
          match readValue fuel text with
          | (value, none) => ([(key, value)], none)
          | (value, some text) =>
            match dropSpaces text with
            | '}' :: rest => ([(key, value)], some rest)
            | ',' :: text =>
              let (members, rest) := readMembers fuel text
              ((key, value) :: members, rest)
            | _ => ([(key, value), (none, .broken)], none)
        | _ => ([(key, .broken)], none)
    | _ => ([(none, .broken)], none)

end

/-- The document of a text, and whether nothing but blanks follows it. -/
def read (text : String) : Doc × Bool :=
  let (doc, rest) := readValue (2 * text.length + 2) text.toList
  (doc, rest.any fun rest => rest.all isSpace)

/-! ## Questions about whole documents -/

mutual

/-- Whether the grammar carries to the end. -/
def Doc.isWhole : Doc → Bool
  | .broken => false
  | .array items => itemsWhole items
  | .object members => membersWhole members
  | _ => true

/-- Whether the grammar carries through all items. -/
def itemsWhole : List Doc → Bool
  | [] => true
  | item :: rest => item.isWhole && itemsWhole rest

/-- Whether the grammar carries through all members. -/
def membersWhole : List (Option String × Doc) → Bool
  | [] => true
  | (_, value) :: rest => value.isWhole && membersWhole rest

end

mutual

/-- The value of a document, if every part of it has one and its containers are
nested at most `room` deep. -/
def Doc.value? : Nat → Doc → Option Json
  | _, .broken => none
  | _, .null => some .null
  | _, .bool b => some (.bool b)
  | _, .number literal => literal.value?
  | _, .string content => content.map .string
  | 0, .array _ => none
  | 0, .object _ => none
  | room + 1, .array items => (itemValues? room items).map .array
  | room + 1, .object members => (memberValues? room members).map .object

/-- The values of all items. -/
def itemValues? : Nat → List Doc → Option (List Json)
  | _, [] => some []
  | room, item :: rest => do
    let value ← item.value? room
    let values ← itemValues? room rest
    pure (value :: values)

/-- The values of all members. -/
def memberValues? : Nat → List (Option String × Doc) → Option (List (String × Json))
  | _, [] => some []
  | room, (some key, doc) :: rest => do
    let value ← doc.value? room
    let values ← memberValues? room rest
    pure ((key, value) :: values)
  | _, _ :: _ => none

end

end BoundSql.Json
