import BoundSql.Toml.Document
import Mathlib.Data.List.Basic
import Mathlib.Tactic.Common

/-!
# TOML text reads back

A table of texts and of lists of texts, written as a header and a line for each
key, is read back line by line:

> `readStatements_lines`: lines in front of a text are read as their statements,
> and the text as it would have been alone.

So nothing need be known of the rest, which may be any text. A string is written
with escapes where it must be, and a key with quotes where it must have them, so
any text can stand in either place. Between the items of a list there is a comma
and as many blanks as one likes.
-/

namespace BoundSql.Toml

/-! ## Strings -/

/-- A character of a string as it is written between double quotes. -/
def escaped (c : Char) : List Char :=
  if c = '\x22' ∨ c = '\\' then ['\\', c]
  else if isPlain c then [c]
  else ['\\', 'u', '0', '0', Nat.digitChar (c.toNat / 16), Nat.digitChar (c.toNat % 16)]

/-- A text between double quotes. -/
def quoted (text : String) : List Char :=
  '\x22' :: (text.toList.flatMap escaped ++ ['\x22'])

theorem hexNumber?_low :
    ∀ n < 0x80, Text.hexNumber? ['0', '0', Nat.digitChar (n / 16), Nat.digitChar (n % 16)]
      = some n := by
  decide

/-- What cannot stand on a line of a string is one of the controls of ASCII. -/
theorem toNat_lt_of_not_isPlain {c : Char} (h : isPlain c = false) : c.toNat < 0x80 := by
  simp only [isPlain, Bool.or_eq_false_iff, Bool.and_eq_false_iff, decide_eq_false_iff_not,
    bne_eq_false_iff_eq] at h
  omega

/-- What is written for a character is read as that character. -/
theorem readBasic_escaped (c : Char) (rest : List Char) :
    readBasic (escaped c ++ rest) = push c (readBasic rest) := by
  unfold escaped
  split_ifs with hquote hplain
  · rcases hquote with rfl | rfl <;> simp [readBasic, shortEscape?]
  · obtain ⟨hquote, hslash⟩ := not_or.mp hquote
    simp [readBasic, hquote, hslash, hplain]
  · have hlow := toNat_lt_of_not_isPlain (Bool.eq_false_iff.mpr hplain)
    have hpoint : codePoint? c.toNat = some c := by
      rw [codePoint?, if_pos (Or.inl (by omega)), Char.ofNat_toNat]
    simp [readBasic, hexNumber?_low _ hlow, hpoint]

/-- A string is read back up to its closing quote. -/
theorem readBasic_quoted (content rest : List Char) :
    readBasic (content.flatMap escaped ++ '\x22' :: rest) = some (content, rest) := by
  induction content with
  | nil => simp [readBasic]
  | cons c content ih =>
    rw [List.flatMap_cons, List.append_assoc, readBasic_escaped, ih]
    rfl

/-- A text that does not go on with a quote. -/
def Unquoted (rest : List Char) : Prop := rest.head? ≠ some '\x22'

/-- A text that does not begin with a quote is no continuation of a string. -/
theorem unquoted_cons {c : Char} (h : c ≠ '\x22') (rest : List Char) : Unquoted (c :: rest) :=
  fun hquote => h (Option.some.inj hquote)

/-- No character is escaped as a quote alone. -/
theorem escaped_head (c : Char) : ∃ d rest, escaped c = d :: rest ∧ d ≠ '\x22' := by
  unfold escaped
  split_ifs with hquote
  · exact ⟨'\\', _, rfl, by decide⟩
  · exact ⟨c, _, rfl, (not_or.mp hquote).1⟩
  · exact ⟨'\\', _, rfl, by decide⟩

/-- One quote opens a string on one line, unless there are three of them. -/
theorem readString_basic {text : List Char} (h : ∀ more, text ≠ '\x22' :: '\x22' :: more) :
    readString ('\x22' :: text) = readBasic text := by
  unfold readString
  split
  · next heq =>
    cases heq
    exact absurd rfl (h _)
  · next heq =>
    cases heq
    rfl
  · next heq => cases heq
  · next heq => cases heq
  · next hquote _ _ => exact absurd rfl (hquote text)

/-- A text between its quotes is read back. If it is empty, no third quote may follow. -/
theorem readString_quoted (text : String) {rest : List Char} (h : Unquoted rest) :
    readString (quoted text ++ rest) = some (text.toList, rest) := by
  have hshape : quoted text ++ rest
      = '\x22' :: (text.toList.flatMap escaped ++ '\x22' :: rest) := by
    simp [quoted]
  rw [hshape, readString_basic, readBasic_quoted]
  -- Left to show: the opening quote is not the first of three.
  intro more hmore
  cases htext : text.toList with
  | nil =>
    rw [htext] at hmore
    obtain ⟨-, hrest⟩ := List.cons.inj hmore
    rw [hrest] at h
    exact h rfl
  | cons c content =>
    obtain ⟨d, others, hescaped, hne⟩ := escaped_head c
    rw [htext, List.flatMap_cons, hescaped] at hmore
    exact hne (List.cons.inj hmore).1

/-! ## Values -/

/-- What is given to a key: a text, or a list of texts. -/
inductive Written where
  | one (text : String)
  | many (texts : List String)

namespace Written

/-- What is given, with so many blanks behind each comma. -/
def chars (gap : Nat) : Written → List Char
  | one text => quoted text
  | many texts =>
    '[' :: ((',' :: List.replicate gap ' ').intercalate (texts.map quoted) ++ [']'])

/-- The value of what is given. -/
def value : Written → Value
  | one text => .string text
  | many texts => .array (texts.map .string)

/-- The texts that are given. -/
def texts : Written → List String
  | one text => [text]
  | many texts => texts

end Written

theorem dropLines_blanks (gap : Nat) (text : List Char) :
    dropLines false (List.replicate gap ' ' ++ text) = dropLines false text := by
  induction gap with
  | zero => rfl
  | succ gap ih =>
    rw [List.replicate_succ, List.cons_append]
    simpa [dropLines] using ih

/-- A quoted text is read as that text. -/
theorem readValue_quoted (fuel room : Nat) (text : String) {rest : List Char} (h : Unquoted rest) :
    readValue (fuel + 1) room (quoted text ++ rest) = some (.string text, rest) := by
  have hread := readString_quoted text h
  rw [quoted, List.cons_append] at hread ⊢
  have hvalue : some (Value.string (String.ofList text.toList), rest) = some (.string text, rest) :=
    congrArg (fun s => some (Value.string s, rest)) String.ofList_toList
  -- The reader looks at the room before it looks at the text, but a string needs none.
  cases room with
  | zero =>
    rw [readValue, hread]
    exact hvalue
  | succ room =>
    rw [readValue, hread]
    exact hvalue

theorem intercalate_cons_cons (separator first second : List Char) (rest : List (List Char)) :
    separator.intercalate (first :: second :: rest)
      = first ++ (separator ++ separator.intercalate (second :: rest)) := by
  simp [List.intercalate]

/-- A list of texts starts with a quote. -/
theorem intercalate_quoted_head (separator : List Char) (text : String) (texts : List String) :
    ∃ more, separator.intercalate ((text :: texts).map quoted) = '\x22' :: more := by
  cases texts with
  | nil => exact ⟨_, List.intercalate_singleton⟩
  | cons next texts =>
    rw [List.map_cons, List.map_cons, intercalate_cons_cons]
    exact ⟨_, rfl⟩

/-- One item of a list is taken off, with the comma and the blanks behind it. -/
theorem readItems_cons (fuel room gap : Nat) (text : String) (more : List Char) :
    readItems (fuel + 2) room (quoted text ++ ',' :: (List.replicate gap ' ' ++ '\x22' :: more))
      = (readItems (fuel + 1) room ('\x22' :: more)).map
        fun (items, rest) => (.string text :: items, rest) := by
  have hitem := readValue_quoted fuel room text
    (unquoted_cons (by decide : ',' ≠ '\x22') (List.replicate gap ' ' ++ '\x22' :: more))
  have hcomma : dropLines false (',' :: (List.replicate gap ' ' ++ '\x22' :: more))
      = ',' :: (List.replicate gap ' ' ++ '\x22' :: more) := rfl
  have hblanks : dropLines false (List.replicate gap ' ' ++ '\x22' :: more) = '\x22' :: more := by
    rw [dropLines_blanks]
    rfl
  rw [readItems, hitem]
  simp only [Option.bind_eq_bind, Option.bind_some, hcomma, hblanks]
  show (readItems (fuel + 1) room ('\x22' :: more)).bind
    (fun read => pure (.string text :: read.1, read.2)) = _
  cases readItems (fuel + 1) room ('\x22' :: more) <;> rfl

/-- The last item of a list is taken off, with the end of the list. -/
theorem readItems_singleton (fuel room : Nat) (text : String) (rest : List Char) :
    readItems (fuel + 2) room (quoted text ++ ']' :: rest) = some ([.string text], rest) := by
  have hitem := readValue_quoted fuel room text
    (unquoted_cons (by decide : ']' ≠ '\x22') rest)
  rw [readItems, hitem]
  rfl

/-- Texts with commas between them are read up to the end of their list. -/
theorem readItems_texts (gap room : Nat) (rest : List Char) : ∀ (texts : List String)
    (text : String) (fuel : Nat), texts.length + 2 ≤ fuel →
      readItems fuel room ((',' :: List.replicate gap ' ').intercalate
          ((text :: texts).map quoted) ++ ']' :: rest)
        = some ((text :: texts).map .string, rest) := by
  intro texts
  induction texts with
  | nil =>
    intro text fuel hfuel
    obtain ⟨fuel, rfl⟩ := Nat.exists_eq_add_of_le' hfuel
    rw [List.map_singleton, List.intercalate_singleton]
    exact readItems_singleton fuel room text rest
  | cons next texts ih =>
    intro text fuel hfuel
    rw [List.length_cons] at hfuel
    obtain ⟨fuel, rfl⟩ : ∃ less, fuel = less + 2 := ⟨fuel - 2, by omega⟩
    have hrest := ih next (fuel + 1) (by omega)
    -- The next item has to be seen to start with a quote, for the blanks to end there.
    obtain ⟨more, hmore⟩ := intercalate_quoted_head (',' :: List.replicate gap ' ') next texts
    rw [hmore, List.cons_append] at hrest
    rw [List.map_cons, List.map_cons, intercalate_cons_cons, ← List.map_cons, hmore,
      List.append_assoc, List.append_assoc, List.cons_append, List.cons_append, readItems_cons,
      hrest]
    rfl

/-- What is given to a key is read back, whatever comes after it on a line of its own. -/
theorem readValue_written (gap room : Nat) {written : Written} {fuel : Nat} {rest : List Char}
    (hfuel : written.texts.length + 2 ≤ fuel) (h : Unquoted rest) :
    readValue fuel (room + 1) (written.chars gap ++ rest) = some (written.value, rest) := by
  obtain ⟨fuel, rfl⟩ : ∃ less, fuel = less + 1 := ⟨fuel - 1, by omega⟩
  cases written with
  | one text => exact readValue_quoted fuel (room + 1) text h
  | many texts =>
    cases texts with
    | nil =>
      show readValue (fuel + 1) (room + 1) ('[' :: ']' :: rest) = _
      rw [readValue]
      rfl
    | cons text texts =>
      have hitems := readItems_texts gap room rest texts text fuel (Nat.le_of_succ_le_succ hfuel)
      obtain ⟨more, hmore⟩ := intercalate_quoted_head (',' :: List.replicate gap ' ') text texts
      have hchars : (Written.many (text :: texts)).chars gap ++ rest
          = '[' :: '\x22' :: (more ++ ']' :: rest) := by
        rw [Written.chars, hmore, List.cons_append, List.append_assoc, List.cons_append]
        rfl
      rw [hmore, List.cons_append] at hitems
      rw [hchars, readValue]
      show (readItems fuel room ('\x22' :: (more ++ ']' :: rest))).map _ = _
      rw [hitems]
      rfl

/-! ## Keys -/

/-- Whether a key may stand without quotes. -/
def isBareKey (key : String) : Bool :=
  !key.toList.isEmpty && key.toList.all isBare

/-- A key as it is written: as it is where it may be, and otherwise between double quotes. -/
def keyChars (key : String) : List Char :=
  if isBareKey key then key.toList else quoted key

/-- A key without quotes has a first character, and all of its characters are bare. -/
theorem bare_of_isBareKey {key : String} (h : isBareKey key = true) :
    (∃ c rest, key.toList = c :: rest ∧ isBare c = true) ∧ ∀ c ∈ key.toList, isBare c = true := by
  obtain ⟨hempty, hall⟩ := Bool.and_eq_true_iff.mp h
  have hbare := List.all_eq_true.mp hall
  obtain ⟨c, rest, hkey⟩ := List.exists_cons_of_ne_nil
    (List.isEmpty_eq_false_iff.mp ((Bool.not_eq_true' _).mp hempty))
  exact ⟨⟨c, rest, hkey, hbare c (hkey ▸ List.mem_cons_self)⟩, hbare⟩

/-- What starts a key is neither a blank, nor the end of a line, nor the start of a header or
of a comment. -/
def StartsKey (c : Char) : Prop := [' ', '\t', '\n', '\r', '#', '['].elem c = false

instance (c : Char) : Decidable (StartsKey c) :=
  inferInstanceAs (Decidable (_ = false))

theorem StartsKey.ne {c d : Char} (h : StartsKey c) (hd : ¬ StartsKey d) : c ≠ d :=
  fun hsame => hd (hsame ▸ h)

theorem startsKey_of_isBare {c : Char} (h : isBare c = true) : StartsKey c := by
  refine Bool.eq_false_iff.mpr fun hmem => ?_
  have hothers := List.all_eq_true.mp
    (rfl : [' ', '\t', '\n', '\r', '#', '['].all (fun d => !isBare d) = true) c
    (List.elem_iff.mp hmem)
  rw [h] at hothers
  cases hothers

/-- A key begins with a character that starts one. -/
theorem keyChars_head (key : String) : ∃ c rest, keyChars key = c :: rest ∧ StartsKey c := by
  unfold keyChars
  split_ifs with h
  · obtain ⟨⟨c, rest, hkey, hfirst⟩, -⟩ := bare_of_isBareKey h
    exact ⟨c, rest, hkey, startsKey_of_isBare hfirst⟩
  · exact ⟨'\x22', _, rfl, by decide⟩

/-- A bare key is read up to the first character that cannot stand in it. -/
theorem readKey_of_bare {c : Char} (h : isBare c = true) (text : List Char) :
    readKey (c :: text)
      = some (String.ofList ((c :: text).takeWhile isBare), (c :: text).dropWhile isBare) := by
  unfold readKey
  split
  · next heq =>
    cases heq
    cases h
  · next heq =>
    cases heq
    cases h
  · rw [List.takeWhile_cons_of_pos h]
    rfl

/-- A key is read up to a character that cannot stand in it without quotes. -/
theorem readKey_keyChars (key : String) {d : Char} (hd : isBare d = false) (rest : List Char) :
    readKey (keyChars key ++ d :: rest) = some (key, d :: rest) := by
  have hend : ¬ isBare d = true := Bool.eq_false_iff.mp hd
  unfold keyChars
  split_ifs with h
  · obtain ⟨⟨c, more, hkey, hfirst⟩, hbare⟩ := bare_of_isBareKey h
    have htake : (key.toList ++ d :: rest).takeWhile isBare = key.toList := by
      rw [List.takeWhile_append_of_pos hbare, List.takeWhile_cons_of_neg hend, List.append_nil]
    have hdrop : (key.toList ++ d :: rest).dropWhile isBare = d :: rest := by
      rw [List.dropWhile_append_of_pos hbare, List.dropWhile_cons_of_neg hend]
    rw [hkey, List.cons_append, readKey_of_bare hfirst, ← List.cons_append, ← hkey, htake, hdrop,
      String.ofList_toList]
  · have hshape : quoted key ++ d :: rest
        = '\x22' :: (key.toList.flatMap escaped ++ '\x22' :: d :: rest) := by
      simp [quoted]
    rw [hshape, readKey, readBasic_quoted]
    exact congrArg (fun key => some (key, d :: rest)) String.ofList_toList

/-- There is no blank before a key. -/
theorem dropBlanks_cons {c : Char} (h : StartsKey c) (rest : List Char) :
    dropBlanks (c :: rest) = c :: rest := by
  refine List.dropWhile_cons_of_neg fun hblank => ?_
  rw [Bool.or_eq_true, beq_iff_eq, beq_iff_eq] at hblank
  rcases hblank with rfl | rfl
  · cases h
  · cases h

/-- A key by itself is a path, before what is neither a part of it nor a point. -/
theorem readPath_keyChars (key : String) {d e : Char} {text rest : List Char}
    (hd : isBare d = false) (hrest : dropBlanks (d :: text) = e :: rest) (hpoint : e ≠ '.') :
    readPath maxPath (keyChars key ++ d :: text) = some ([key], e :: rest) := by
  obtain ⟨c, more, hkey, hstart⟩ := keyChars_head key
  have hread := readKey_keyChars key hd text
  rw [hkey, List.cons_append] at hread ⊢
  show readPath (78 + 1) _ = _
  rw [readPath, dropBlanks_cons hstart, hread]
  simp only [Option.bind_eq_bind, Option.bind_some, hrest]
  split
  · next heq => exact absurd (List.cons.inj heq).1 hpoint
  · rfl

/-! ## Lines -/

/-- A line of a table: a key and what is given to it. -/
structure Line where
  key : String
  given : Written

/-- A line as it is written, with its end. -/
def Line.chars (gap : Nat) (line : Line) : List Char :=
  keyChars line.key ++ ' ' :: '=' :: ' ' :: (line.given.chars gap ++ ['\n'])

/-- The statement that a line makes. -/
def Line.statement (line : Line) : Statement := .entry [line.key] line.given.value

/-- A key does not end a line. -/
theorem lineEnd?_cons {c : Char} (h : StartsKey c) (rest : List Char) :
    lineEnd? (c :: rest) = none := by
  have hcomment : dropComment (c :: rest) = c :: rest := by
    unfold dropComment
    split
    · next heq => exact absurd (List.cons.inj heq).1 (h.ne (by decide))
    · rfl
  rw [lineEnd?, dropBlanks_cons h, hcomment]
  dsimp only
  unfold afterNewline?
  split
  · next heq => exact absurd (List.cons.inj heq).1 (h.ne (by decide))
  · next heq => exact absurd (List.cons.inj heq).1 (h.ne (by decide))
  · rfl

/-- A key with an equals sign begins an entry, and the rest is left to its value. -/
theorem readStatement_keyChars (fuel : Nat) (key : String) (rest : List Char) :
    readStatement (fuel + 1) (keyChars key ++ ' ' :: '=' :: rest)
      = (readValue fuel maxDepth (dropBlanks rest)).map
        fun read => (.entry [key] read.1, read.2) := by
  have hentry : readEntry (fuel + 1) maxDepth (keyChars key ++ ' ' :: '=' :: rest)
      = (readValue fuel maxDepth (dropBlanks rest)).map fun read => (([key], read.1), read.2) := by
    have hpath : readPath maxPath (keyChars key ++ ' ' :: '=' :: rest)
        = some ([key], '=' :: rest) := readPath_keyChars key rfl rfl (by decide)
    rw [readEntry, hpath]
    show (readValue fuel maxDepth (dropBlanks rest)).bind
      (fun read => pure (([key], read.1), read.2)) = _
    cases readValue fuel maxDepth (dropBlanks rest) <;> rfl
  obtain ⟨c, more, hkey, hstart⟩ := keyChars_head key
  rw [hkey, List.cons_append] at hentry ⊢
  -- A header would start with a bracket, and no key does.
  unfold readStatement
  split
  · next heq => exact absurd (List.cons.inj heq).1 (hstart.ne (by decide))
  · next heq => exact absurd (List.cons.inj heq).1 (hstart.ne (by decide))
  · rw [hentry]
    cases readValue fuel maxDepth (dropBlanks rest) <;> rfl

/-- An entry is read up to the end of its line, and then the rest of the text. -/
theorem readStatements_keyChars (fuel : Nat) (key : String) (rest : List Char) :
    readStatements (fuel + 2) (keyChars key ++ ' ' :: '=' :: rest)
      = (readValue fuel maxDepth (dropBlanks rest)).bind fun read =>
        (lineEnd? read.2).bind fun rest =>
          (readStatements (fuel + 1) rest).map (.entry [key] read.1 :: ·) := by
  have hstatement := readStatement_keyChars fuel key rest
  obtain ⟨c, more, hkey, hstart⟩ := keyChars_head key
  rw [hkey, List.cons_append] at hstatement ⊢
  rw [readStatements, dropBlanks_cons hstart]
  dsimp only
  rw [lineEnd?_cons hstart]
  dsimp only
  rw [hstatement]
  cases readValue fuel maxDepth (dropBlanks rest) with
  | none => rfl
  | some read =>
    show (lineEnd? read.2).bind _ = (lineEnd? read.2).bind _
    congr 1
    funext rest
    cases readStatements (fuel + 1) rest <;> rfl

/-- A line is read as its statement, with what is left of the room for the others. -/
theorem readStatements_line (gap : Nat) {line : Line} {fuel : Nat} (rest : List Char)
    (h : line.given.texts.length + 2 ≤ fuel) :
    readStatements (fuel + 2) (line.chars gap ++ rest)
      = (readStatements (fuel + 1) rest).map (line.statement :: ·) := by
  have hvalue := readValue_written gap 78 h (unquoted_cons (by decide : '\n' ≠ '\x22') rest)
  have hblanks : dropBlanks (' ' :: (line.given.chars gap ++ '\n' :: rest))
      = line.given.chars gap ++ '\n' :: rest := by
    cases line.given <;> rfl
  have hshape : line.chars gap ++ rest
      = keyChars line.key ++ ' ' :: '=' :: ' ' :: (line.given.chars gap ++ '\n' :: rest) := by
    simp [Line.chars]
  rw [hshape, readStatements_keyChars, hblanks]
  show (readValue fuel (78 + 1) _).bind _ = _
  rw [hvalue]
  rfl

/-- **Lines are read line by line.** What follows them is read as it would have been alone. -/
theorem readStatements_lines (gap fuel : Nat) (rest : List Char) : ∀ lines : List Line,
    (∀ line ∈ lines, line.given.texts.length + 2 ≤ fuel) →
      readStatements (lines.length + (fuel + 1)) (lines.flatMap (Line.chars gap) ++ rest)
        = (readStatements (fuel + 1) rest).map (lines.map Line.statement ++ ·) := by
  intro lines
  induction lines with
  | nil =>
    intro _
    rw [List.length_nil, Nat.zero_add]
    exact Option.map_id'.symm
  | cons line lines ih =>
    intro h
    obtain ⟨hline, hlines⟩ := List.forall_mem_cons.mp h
    have hfuel : (line :: lines).length + (fuel + 1) = (lines.length + fuel) + 2 := by
      rw [List.length_cons]
      omega
    rw [hfuel, List.flatMap_cons, List.append_assoc,
      readStatements_line gap _ (Nat.le_trans hline (Nat.le_add_left _ _)), Nat.add_assoc,
      ih hlines, Option.map_map]
    rfl

/-! ## Tables -/

/-- The text of a table: a header and lines. -/
def tableText (name : String) (gap : Nat) (lines : List Line) : String :=
  String.ofList ('[' :: (keyChars name ++ ']' :: '\n' :: lines.flatMap (Line.chars gap)))

/-- A header is read up to the end of its line, and then the rest of the text. -/
theorem readStatements_header (fuel : Nat) (name : String) (rest : List Char) :
    readStatements (fuel + 1) ('[' :: (keyChars name ++ ']' :: '\n' :: rest))
      = (readStatements fuel rest).map (.header [name] :: ·) := by
  have hpath : readPath maxPath (keyChars name ++ ']' :: '\n' :: rest)
      = some ([name], ']' :: '\n' :: rest) := readPath_keyChars name rfl rfl (by decide)
  have hstatement : readStatement fuel ('[' :: (keyChars name ++ ']' :: '\n' :: rest))
      = some (.header [name], '\n' :: rest) := by
    obtain ⟨c, more, hkey, hstart⟩ := keyChars_head name
    rw [hkey, List.cons_append] at hpath ⊢
    unfold readStatement
    split
    · next heq =>
      exact absurd (List.cons.inj (List.cons.inj heq).2).1 (hstart.ne (by decide))
    · next heq =>
      rw [← (List.cons.inj heq).2, hpath]
      rfl
    · next _ hheader => exact absurd rfl (hheader _)
  have hblanks : ∀ text, dropBlanks ('[' :: text) = '[' :: text := fun _ => rfl
  have hline : ∀ text, lineEnd? ('[' :: text) = none := fun _ => rfl
  rw [readStatements, hblanks]
  dsimp only
  rw [hline]
  dsimp only
  rw [hstatement]
  show (readStatements fuel rest).bind _ = _
  cases readStatements fuel rest <;> rfl

/-- A list of texts has at least a character for each of them. -/
theorem length_le_intercalate_quoted (separator : List Char) (texts : List String) :
    texts.length ≤ (separator.intercalate (texts.map quoted)).length := by
  induction texts with
  | nil => exact Nat.zero_le _
  | cons text texts ih =>
    cases texts with
    | nil => exact Nat.succ_le_succ (Nat.zero_le _)
    | cons next texts =>
      have hquote : 1 ≤ (quoted text).length := Nat.succ_le_succ (Nat.zero_le _)
      rw [List.map_cons, List.map_cons, intercalate_cons_cons, List.length_append,
        List.length_append, ← List.map_cons, List.length_cons]
      omega

/-- A line has more characters than texts. -/
theorem length_texts_lt (gap : Nat) (line : Line) :
    line.given.texts.length < (line.chars gap).length := by
  have hgiven : line.given.texts.length ≤ (line.given.chars gap).length := by
    cases line.given with
    | one text => exact Nat.succ_le_succ (Nat.zero_le _)
    | many texts =>
      -- Each text brings at least its opening quote.
      have htexts := length_le_intercalate_quoted (',' :: List.replicate gap ' ') texts
      rw [Written.chars, List.length_cons, List.length_append]
      exact Nat.le_trans htexts (by omega)
  simp only [Line.chars, List.length_append, List.length_cons]
  omega

/-- Lines have more characters than any of them has texts, and more than there are lines. -/
theorem length_lines_le (gap : Nat) (lines : List Line) :
    lines.length ≤ (lines.flatMap (Line.chars gap)).length ∧
      ∀ line ∈ lines, line.given.texts.length ≤ (lines.flatMap (Line.chars gap)).length := by
  induction lines with
  | nil => exact ⟨Nat.le_refl 0, nofun⟩
  | cons line lines ih =>
    obtain ⟨hcount, htexts⟩ := ih
    have hline := length_texts_lt gap line
    rw [List.flatMap_cons, List.length_append, List.length_cons, List.forall_mem_cons]
    refine ⟨by omega, by omega, fun other hother => ?_⟩
    exact Nat.le_trans (htexts other hother) (Nat.le_add_left _ _)

/-- **A table is read line by line**, and what follows it as it would have been alone. -/
theorem read_tableText (name : String) (gap : Nat) (lines : List Line) (rest : String) :
    ∃ fuel, read (tableText name gap lines ++ rest)
      = (readStatements (fuel + 2) rest.toList).map
        fun others => .header [name] :: (lines.map Line.statement ++ others) := by
  have htext : (tableText name gap lines ++ rest).toList = '[' :: (keyChars name ++
      ']' :: '\n' :: (lines.flatMap (Line.chars gap) ++ rest.toList)) := by
    simp [tableText]
  obtain ⟨hcount, htexts⟩ := length_lines_le gap lines
  have hread : read (tableText name gap lines ++ rest)
      = readStatements (3 * (tableText name gap lines ++ rest).toList.length + 3 + 1)
        (tableText name gap lines ++ rest).toList := by
    rw [read, htext]
    rfl
  have hlong : (lines.flatMap (Line.chars gap)).length
      ≤ (tableText name gap lines ++ rest).toList.length := by
    rw [htext]
    simp only [List.length_cons, List.length_append]
    omega
  generalize (tableText name gap lines ++ rest).toList.length = size at hread hlong
  -- The reader starts with three units for each character. A line takes one, and its value as many
  -- as it has texts: both are bounded by the characters of the lines.
  obtain ⟨fuel, hfuel⟩ : ∃ fuel, 3 * size + 3 = lines.length + (fuel + 1 + 1) :=
    ⟨3 * size + 1 - lines.length, by omega⟩
  have hroom : ∀ line ∈ lines, line.given.texts.length + 2 ≤ fuel + 1 := by
    intro line hline
    have hsize := htexts line hline
    omega
  refine ⟨fuel, ?_⟩
  rw [hread, htext, readStatements_header, hfuel, readStatements_lines gap _ _ lines hroom,
    Option.map_map]
  rfl

end BoundSql.Toml
