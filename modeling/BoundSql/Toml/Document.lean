import BoundSql.Toml.Scalar

/-!
# TOML documents

A document is a list of statements, each on lines of its own: a header opens
a table, and an entry gives a value to a path of keys. What the statements
define together is left to whoever takes them in. A table written as one
value stands for itself, so its entries are kept apart here. The depth of a
value and the length of a path are bounded.
-/

namespace BoundSql.Toml

/-- A value. Of numbers, truth values and times only the presence is kept. -/
inductive Value where
  | string (s : String)
  | word
  | array (items : List Value)
  | table (entries : List (List String × Value))
  deriving Inhabited

/-- A statement of a document. -/
inductive Statement where
  | header (path : List String)
  | itemHeader (path : List String)
  | entry (path : List String) (value : Value)
  deriving Inhabited

/-- The text without the blanks, line ends and comments in front of it; a comment may
have begun already. -/
def dropLines (inComment : Bool) : List Char → List Char
  | [] => []
  | '\r' :: '\n' :: text => dropLines false text
  | c :: text =>
    if c = '\n' then dropLines false text
    else if inComment then
      if isPlain c then dropLines true text else c :: text
    else if c = ' ' ∨ c = '\t' then dropLines false text
    else if c = '#' then dropLines true text
    else c :: text

/-- The containers that may be nested in one value. -/
def maxDepth : Nat := 79

/-- Whether every path ends at a place of its own: none is repeated, and none goes on
beyond the end of another. -/
def areApart : List (List String) → Bool
  | [] => true
  | path :: rest =>
    rest.all (fun other => !path.isPrefixOf other && !other.isPrefixOf path) && areApart rest

mutual

/-- Reads a value in which so many containers may be opened. Each call takes from the
fuel, of which three times the length of the text is enough. -/
def readValue : Nat → Nat → List Char → Option (Value × List Char)
  | 0, _, _ => none
  | fuel + 1, room, text =>
    match room, text with
    | room + 1, '[' :: text =>
      match dropLines false text with
      | ']' :: rest => some (.array [], rest)
      | text => (readItems fuel room text).map fun (items, rest) => (.array items, rest)
    | room + 1, '\x7b' :: text =>
      match dropBlanks text with
      | '\x7d' :: rest => some (.table [], rest)
      | text => do
        let (entries, rest) ← readEntries fuel room text
        if areApart (entries.map Prod.fst) then pure (.table entries, rest) else none
    | _, '\x22' :: _ | _, '\x27' :: _ =>
      (readString text).map fun (s, rest) => (.string (String.ofList s), rest)
    | _, text => (readWord text).map fun rest => (.word, rest)

/-- Reads the items of an array, of which there is at least one, and its end. A comma
may stand after the last of them. -/
def readItems : Nat → Nat → List Char → Option (List Value × List Char)
  | 0, _, _ => none
  | fuel + 1, room, text => do
    let (item, text) ← readValue fuel room text
    match dropLines false text with
    | ']' :: rest => pure ([item], rest)
    | ',' :: text =>
      match dropLines false text with
      | ']' :: rest => pure ([item], rest)
      | text =>
        let (items, rest) ← readItems fuel room text
        pure (item :: items, rest)
    | _ => none

/-- Reads one entry: a path, an equals sign and a value. -/
def readEntry : Nat → Nat → List Char → Option ((List String × Value) × List Char)
  | 0, _, _ => none
  | fuel + 1, room, text => do
    let (path, text) ← readPath maxPath text
    match dropBlanks text with
    | '=' :: text =>
      let (value, rest) ← readValue fuel room (dropBlanks text)
      pure ((path, value), rest)
    | _ => none

/-- Reads the entries of a table on one line, of which there is at least one, and its end. -/
def readEntries : Nat → Nat → List Char → Option (List (List String × Value) × List Char)
  | 0, _, _ => none
  | fuel + 1, room, text => do
    let (entry, text) ← readEntry fuel room text
    match dropBlanks text with
    | '\x7d' :: rest => pure ([entry], rest)
    | ',' :: text =>
      let (entries, rest) ← readEntries fuel room text
      pure (entry :: entries, rest)
    | _ => none

end

/-- Reads the statement in front of a text, with the brackets of a header around its path. -/
def readStatement (fuel : Nat) (text : List Char) : Option (Statement × List Char) :=
  match text with
  | '[' :: '[' :: text => do
    let (path, text) ← readPath maxPath text
    match text with
    | ']' :: ']' :: rest => pure (.itemHeader path, rest)
    | _ => none
  | '[' :: text => do
    let (path, text) ← readPath maxPath text
    match text with
    | ']' :: rest => pure (.header path, rest)
    | _ => none
  | text => do
    let ((path, value), rest) ← readEntry fuel maxDepth text
    pure (.entry path value, rest)

/-- Reads statements up to the end of the text. -/
def readStatements : Nat → List Char → Option (List Statement)
  | 0, _ => none
  | fuel + 1, text =>
    match dropBlanks text with
    | [] => some []
    | text =>
      match lineEnd? text with
      | some rest => readStatements fuel rest
      | none => do
        let (statement, text) ← readStatement fuel text
        let rest ← lineEnd? text
        let statements ← readStatements fuel rest
        pure (statement :: statements)

/-- The text without the byte order mark that may stand in front of it. -/
def dropMark : List Char → List Char
  | '\uFEFF' :: text => text
  | text => text

/-- The statements of a text. -/
def read (text : String) : Option (List Statement) :=
  let text := dropMark text.toList
  readStatements (3 * text.length + 4) text

end BoundSql.Toml
