import BoundSql.Proofs.JsonText
import Mathlib.Data.List.DropRight

/-!
# Texts put together

A reader that has come to the end of a value does not look further: with a
comma or the end of a container after it, the same value is read, and what is
left grows by what was added. This is said of every text that is read, with
whatever blanks, escapes and digits it is written. So texts of items put between
brackets, and texts of keys and values put between braces, are read as the array
and the object of what each of them is read as alone. The induction is on the
fuel of the reader and covers values, items and members at once.

> `Json.read_arrayText`, `Json.read_objectText`: a container is read as its parts are.
-/

namespace BoundSql.Json

/-! ## Scalars -/

section Appended

variable {more : List Char} (h : Closes more)

include h

/-- What comes behind a text of digits that has ended is left over. -/
theorem readDigits_append (text : List Char) :
    readDigits (text ++ more) = ((readDigits text).1, (readDigits text).2 ++ more) := by
  induction text with
  | nil => cases h <;> rfl
  | cons c text ih =>
    simp only [readDigits, Prod.mk.injEq] at ih ⊢
    obtain ⟨htake, hdrop⟩ := ih
    by_cases hc : c.isDigit = true
    · rw [List.cons_append, List.takeWhile_cons_of_pos hc, List.takeWhile_cons_of_pos hc,
        List.dropWhile_cons_of_pos hc, List.dropWhile_cons_of_pos hc, htake, hdrop]
      exact ⟨rfl, rfl⟩
    · rw [List.cons_append, List.takeWhile_cons_of_neg hc, List.takeWhile_cons_of_neg hc,
        List.dropWhile_cons_of_neg hc, List.dropWhile_cons_of_neg hc]
      exact ⟨rfl, rfl⟩

/-- A whole number is read in the same way whatever comes behind it. -/
theorem readWhole_append (text : List Char) :
    readWhole (text ++ more) = (readWhole text).map fun read => (read.1, read.2 ++ more) := by
  rw [readWhole, readWhole, readDigits_append h]
  rcases readDigits text with ⟨digits, rest⟩
  split <;> simp_all

theorem readFraction_append (text : List Char) :
    readFraction (text ++ more)
      = (readFraction text).map fun read => (read.1, read.2 ++ more) := by
  rcases text with _ | ⟨c, text⟩
  · cases h <;> rfl
  · by_cases hc : c = '.'
    · subst hc
      simp only [List.cons_append, readFraction, readDigits_append h]
      rcases readDigits text with ⟨_ | ⟨d, digits⟩, rest⟩ <;> rfl
    · simp [readFraction, hc]

theorem readSign_append (text : List Char) :
    readSign (text ++ more) = ((readSign text).1, (readSign text).2 ++ more) := by
  rcases text with _ | ⟨c, text⟩
  · cases h <;> rfl
  · unfold readSign
    split <;> simp_all

theorem readPower_append (text : List Char) :
    readPower (text ++ more) = (readPower text).map fun read => (read.1, read.2 ++ more) := by
  rcases text with _ | ⟨mark, text⟩
  · cases h <;> rfl
  · simp only [readPower, List.cons_append, readSign_append h, readDigits_append h]
    split
    · rcases readDigits (readSign text).2 with ⟨_ | ⟨d, digits⟩, rest⟩
      · rfl
      · rfl
    · rfl

theorem readLiteral_append (negative : Bool) (text : List Char) :
    readLiteral negative (text ++ more)
      = (readLiteral negative text).map fun read => (read.1, read.2 ++ more) := by
  unfold readLiteral
  rw [readWhole_append h]
  rcases readWhole text with _ | ⟨whole, text⟩
  · rfl
  · simp only [Option.map_some, Option.bind_eq_bind, Option.bind_some, readFraction_append h]
    rcases readFraction text with _ | ⟨fraction, text⟩
    · rfl
    · simp only [Option.map_some, Option.bind_some, readPower_append h]
      rcases readPower text with _ | ⟨power, text⟩ <;> rfl

theorem readNumber_append (text : List Char) :
    readNumber (text ++ more) = ((readNumber text).1, (readNumber text).2.map (· ++ more)) := by
  rcases text with _ | ⟨c, text⟩
  · cases h <;> rfl
  · by_cases hc : c = '-'
    · subst hc
      simp only [readNumber, List.cons_append, readLiteral_append h]
      rcases readLiteral true text with _ | ⟨literal, rest⟩ <;> rfl
    · have hliteral := readLiteral_append h false (c :: text)
      rw [List.cons_append] at hliteral ⊢
      simp only [readNumber, List.cons.injEq, hc, false_and, imp_false, not_false_eq_true,
        implies_true, hliteral]
      rcases readLiteral false (c :: text) with _ | ⟨literal, rest⟩ <;> rfl

end Appended

/-- A string ends at its quote, whatever follows. -/
theorem readPieces_append {text rest : List Char} {pieces : List Piece}
    (h : readPieces text = some (pieces, rest)) (more : List Char) :
    readPieces (text ++ more) = some (pieces, rest ++ more) := by
  fun_induction readPieces text generalizing pieces with
  | case1 => cases h
  | case2 a b c d text ih =>
    obtain ⟨n, hn, htext⟩ := Option.bind_eq_some_iff.mp h
    obtain ⟨⟨others, left⟩, hread, hpieces⟩ := Option.bind_eq_some_iff.mp htext
    cases hpieces
    simp [readPieces, hn, ih hread]
  | case3 e text _ ih =>
    obtain ⟨c, hc, htext⟩ := Option.bind_eq_some_iff.mp h
    obtain ⟨⟨others, left⟩, hread, hpieces⟩ := Option.bind_eq_some_iff.mp htext
    cases hpieces
    -- An escape of one character: `\u` would have been the case before.
    have hunit : e ≠ 'u' := by
      rintro rfl
      cases hc
    simp [readPieces, hunit, hc, ih hread]
  | case4 text =>
    cases h
    simp [readPieces]
  | case5 => cases h
  | case6 c text _ _ hquote hplain ih =>
    obtain ⟨⟨others, left⟩, hread, hpieces⟩ := Option.bind_eq_some_iff.mp h
    cases hpieces
    obtain ⟨hslash, hlow⟩ := not_or.mp hplain
    simp [readPieces, hquote, hslash, hlow, ih hread]

/-- A number starts with a digit or its sign. -/
theorem readNumber_head {text rest : List Char} {doc : Doc}
    (h : readNumber text = (doc, some rest)) :
    ∃ c tail, text = c :: tail ∧ (c.isDigit = true ∨ c = '-') := by
  rcases text with _ | ⟨c, tail⟩
  · cases h
  · refine ⟨c, tail, rfl, ?_⟩
    -- Without a digit in front there is no whole part, and the reader stops at once.
    by_contra hc
    obtain ⟨hdigit, hsign⟩ := not_or.mp hc
    have hdigits : readDigits (c :: tail) = ([], c :: tail) := by
      rw [readDigits, List.takeWhile_cons_of_neg hdigit, List.dropWhile_cons_of_neg hdigit]
    have hliteral : readLiteral false (c :: tail) = none := by
      rw [readLiteral, readWhole, hdigits]
      rfl
    have hstop : readNumber (c :: tail) = .stopped := by
      simp [readNumber, hsign, hliteral]
    cases hstop.symm.trans h

/-- What starts like a number is read as one. -/
theorem readScalar_of_number_head {c : Char} (hc : c.isDigit = true ∨ c = '-') (tail : List Char) :
    readScalar (c :: tail) = readNumber (c :: tail) := by
  unfold readScalar
  split <;> simp_all

/-- Only a number is read as one. -/
theorem exists_literal_of_readNumber {text rest : List Char} {doc : Doc}
    (h : readNumber text = (doc, some rest)) : ∃ literal, doc = .number literal := by
  unfold readNumber at h
  dsimp only at h
  split at h
  · next literal _ _ =>
    cases h
    exact ⟨literal, rfl⟩
  · cases h

/-- How a scalar is read to its end. -/
inductive ScalarStep : List Char → Doc → List Char → Prop
  | null (rest : List Char) : ScalarStep ('n' :: 'u' :: 'l' :: 'l' :: rest) .null rest
  | yes (rest : List Char) : ScalarStep ('t' :: 'r' :: 'u' :: 'e' :: rest) (.bool true) rest
  | no (rest : List Char) : ScalarStep ('f' :: 'a' :: 'l' :: 's' :: 'e' :: rest) (.bool false) rest
  | string {inner rest : List Char} {pieces : List Piece} {content : Option String}
    (hpieces : readPieces inner = some (pieces, rest))
    (hcontent : contentOfPieces pieces = content) :
    ScalarStep ('\x22' :: inner) (.string content) rest
  | number {text rest : List Char} {literal : Literal}
    (hnumber : readNumber text = (.number literal, some rest)) :
    ScalarStep text (.number literal) rest

/-- A scalar that was read is one step of the reader. -/
theorem ScalarStep.of_read {text rest : List Char} {doc : Doc}
    (h : readScalar text = (doc, some rest)) : ScalarStep text doc rest := by
  fun_cases readScalar text with
  | case1 rest =>
    cases h
    exact .null rest
  | case2 rest =>
    cases h
    exact .yes rest
  | case3 rest =>
    cases h
    exact .no rest
  | case4 text pieces left hread =>
    rw [readScalar, hread] at h
    cases h
    exact .string hread rfl
  | case5 text hread =>
    rw [readScalar, hread] at h
    cases h
  | case6 text hnull htrue hfalse hquote =>
    have hnumber : readNumber text = (doc, some rest) := by
      rwa [readScalar] at h <;> assumption
    obtain ⟨literal, rfl⟩ := exists_literal_of_readNumber hnumber
    exact .number hnumber

/-- A scalar ends where it ends, with something that closes it after it. -/
theorem readScalar_append {text rest : List Char} {doc : Doc}
    (h : readScalar text = (doc, some rest)) {more : List Char} (hmore : Closes more) :
    readScalar (text ++ more) = (doc, some (rest ++ more)) := by
  cases ScalarStep.of_read h with
  | null | yes | no => rfl
  | string hpieces hcontent =>
    rw [List.cons_append, readScalar, readPieces_append hpieces]
    exact congrArg (fun content => (Doc.string content, some (rest ++ more))) hcontent
  | number hnumber =>
    obtain ⟨c, tail, rfl, hc⟩ := readNumber_head hnumber
    rw [List.cons_append, readScalar_of_number_head hc, ← List.cons_append,
      readNumber_append hmore, hnumber]
    rfl

/-! ## One step of the reader -/

theorem dropSpaces_dropSpaces (text : List Char) : dropSpaces (dropSpaces text) = dropSpaces text :=
  List.dropWhile_idempotent isSpace text

/-- Spaces before a value are passed over. -/
theorem readValue_dropSpaces (fuel : Nat) (text : List Char) :
    readValue fuel (dropSpaces text) = readValue fuel text := by
  cases fuel with
  | zero => rfl
  | succ fuel => rw [readValue, readValue, dropSpaces_dropSpaces]

theorem readItems_dropSpaces (fuel : Nat) (text : List Char) :
    readItems fuel (dropSpaces text) = readItems fuel text := by
  cases fuel with
  | zero => rfl
  | succ fuel => rw [readItems, readItems, readValue_dropSpaces]

theorem readMembers_dropSpaces (fuel : Nat) (text : List Char) :
    readMembers fuel (dropSpaces text) = readMembers fuel text := by
  cases fuel with
  | zero => rfl
  | succ fuel => rw [readMembers, readMembers, dropSpaces_dropSpaces]

/-- No value starts with the end of an array. -/
theorem readValue_ne_bracket {fuel : Nat} {text rest : List Char} {doc : Doc}
    (h : readValue fuel text = (doc, some rest)) : ∀ tail, dropSpaces text ≠ ']' :: tail := by
  intro tail hclose
  cases fuel with
  | zero => cases h
  | succ fuel =>
    rw [readValue, hclose] at h
    cases h

/-- Items do not begin where an array ends. -/
theorem readItems_ne_bracket {fuel : Nat} {text rest : List Char} {items : List Doc}
    (h : readItems fuel text = (items, some rest)) : ∀ tail, dropSpaces text ≠ ']' :: tail := by
  cases fuel with
  | zero => cases h
  | succ fuel =>
    rw [readItems] at h
    split at h
    · cases h
    · next hitem => exact readValue_ne_bracket hitem

/-- Members do not begin where an object ends. -/
theorem readMembers_ne_brace {fuel : Nat} {text rest : List Char}
    {members : List (Option String × Doc)} (h : readMembers fuel text = (members, some rest)) :
    ∀ tail, dropSpaces text ≠ '}' :: tail := by
  intro tail hclose
  cases fuel with
  | zero => cases h
  | succ fuel =>
    rw [readMembers, hclose] at h
    cases h

/-- How a value is read to its end. -/
inductive ValueStep (fuel : Nat) (text : List Char) : Doc → List Char → Prop
  | emptyArray {inner rest : List Char} (hopen : dropSpaces text = '[' :: inner)
    (hclose : dropSpaces inner = ']' :: rest) : ValueStep fuel text (.array []) rest
  | array {inner rest : List Char} {items : List Doc} (hopen : dropSpaces text = '[' :: inner)
    (hitems : readItems fuel inner = (items, some rest)) : ValueStep fuel text (.array items) rest
  | emptyObject {inner rest : List Char} (hopen : dropSpaces text = '{' :: inner)
    (hclose : dropSpaces inner = '}' :: rest) : ValueStep fuel text (.object []) rest
  | object {inner rest : List Char} {members : List (Option String × Doc)}
    (hopen : dropSpaces text = '{' :: inner)
    (hmembers : readMembers fuel inner = (members, some rest)) :
    ValueStep fuel text (.object members) rest
  | scalar {c : Char} {tail rest : List Char} {doc : Doc} (hopen : dropSpaces text = c :: tail)
    (harray : c ≠ '[') (hobject : c ≠ '{') (hscalar : readScalar (c :: tail) = (doc, some rest)) :
    ValueStep fuel text doc rest

/-- How items are read to the end of their array. -/
inductive ItemsStep (fuel : Nat) (text : List Char) : List Doc → List Char → Prop
  | last {item : Doc} {left rest : List Char} (hitem : readValue fuel text = (item, some left))
    (hclose : dropSpaces left = ']' :: rest) : ItemsStep fuel text [item] rest
  | more {item : Doc} {items : List Doc} {left following rest : List Char}
    (hitem : readValue fuel text = (item, some left))
    (hcomma : dropSpaces left = ',' :: following)
    (hitems : readItems fuel following = (items, some rest)) :
    ItemsStep fuel text (item :: items) rest

/-- A key and its value are read, and this is left. -/
def MemberRead (fuel : Nat) (text : List Char) (key : Option String) (value : Doc)
    (left : List Char) : Prop :=
  ∃ inner pieces colon following, dropSpaces text = '\x22' :: inner ∧
    readPieces inner = some (pieces, colon) ∧ contentOfPieces pieces = key ∧
    dropSpaces colon = ':' :: following ∧ readValue fuel following = (value, some left)

/-- How members are read to the end of their object. -/
inductive MembersStep (fuel : Nat) (text : List Char) :
    List (Option String × Doc) → List Char → Prop
  | last {key : Option String} {value : Doc} {left rest : List Char}
    (hmember : MemberRead fuel text key value left) (hclose : dropSpaces left = '}' :: rest) :
    MembersStep fuel text [(key, value)] rest
  | more {key : Option String} {value : Doc} {members : List (Option String × Doc)}
    {left following rest : List Char} (hmember : MemberRead fuel text key value left)
    (hcomma : dropSpaces left = ',' :: following)
    (hmembers : readMembers fuel following = (members, some rest)) :
    MembersStep fuel text ((key, value) :: members) rest

/-- A value is read by one step of the reader. -/
theorem readValue_eq_some_iff {fuel : Nat} {text rest : List Char} {doc : Doc} :
    readValue (fuel + 1) text = (doc, some rest) ↔ ValueStep fuel text doc rest := by
  constructor
  · intro h
    rw [readValue] at h
    split at h
    · next inner hopen =>
      split at h
      · next hclose =>
        cases h
        exact .emptyArray hopen hclose
      · rw [readItems_dropSpaces] at h
        cases hitems : readItems fuel inner
        rw [hitems] at h
        cases h
        exact .array hopen hitems
    · next inner hopen =>
      split at h
      · next hclose =>
        cases h
        exact .emptyObject hopen hclose
      · rw [readMembers_dropSpaces] at h
        cases hmembers : readMembers fuel inner
        rw [hmembers] at h
        cases h
        exact .object hopen hmembers
    · next harray hobject =>
      cases hopen : dropSpaces text with
      | nil =>
        rw [hopen] at h
        cases h
      | cons c tail =>
        rw [hopen] at h
        refine .scalar hopen ?_ ?_ h
        · rintro rfl
          exact harray _ hopen
        · rintro rfl
          exact hobject _ hopen
  · intro h
    rw [readValue]
    cases h with
    | emptyArray hopen hclose => simp only [hopen, hclose]
    | array hopen hitems =>
      -- Items follow the bracket, so the array is not taken for an empty one.
      have hmore := readItems_ne_bracket hitems
      simp only [hopen, readItems_dropSpaces, hitems]
    | emptyObject hopen hclose => simp only [hopen, hclose]
    | object hopen hmembers =>
      have hmore := readMembers_ne_brace hmembers
      simp only [hopen, readMembers_dropSpaces, hmembers]
    | scalar hopen harray hobject hscalar =>
      rw [hopen]
      split <;> simp_all

/-- Items are read by one step and those behind them by the next. -/
theorem readItems_eq_some_iff {fuel : Nat} {text rest : List Char} {items : List Doc} :
    readItems (fuel + 1) text = (items, some rest) ↔ ItemsStep fuel text items rest := by
  constructor
  · intro h
    rw [readItems] at h
    split at h
    · cases h
    · next item left hitem =>
      split at h
      · next hclose =>
        cases h
        exact .last hitem hclose
      · next following hcomma =>
        cases hitems : readItems fuel following
        rw [hitems] at h
        cases h
        exact .more hitem hcomma hitems
      · cases h
  · intro h
    rw [readItems]
    cases h with
    | last hitem hclose => simp only [hitem, hclose]
    | more hitem hcomma hitems => simp only [hitem, hcomma, hitems]

theorem readMembers_eq_some_iff {fuel : Nat} {text rest : List Char}
    {members : List (Option String × Doc)} :
    readMembers (fuel + 1) text = (members, some rest) ↔ MembersStep fuel text members rest := by
  constructor
  · intro h
    rw [readMembers] at h
    split at h
    · next inner hquote =>
      split at h
      · cases h
      · next pieces colon hkey =>
        dsimp only at h
        split at h
        · next following hcolon =>
          split at h
          · cases h
          · next value left hvalue =>
            have hmember : MemberRead fuel text (contentOfPieces pieces) value left :=
              ⟨inner, pieces, colon, following, hquote, hkey, rfl, hcolon, hvalue⟩
            split at h
            · next hclose =>
              cases h
              exact .last hmember hclose
            · next following hcomma =>
              cases hmembers : readMembers fuel following
              rw [hmembers] at h
              cases h
              exact .more hmember hcomma hmembers
            · cases h
        · cases h
    · cases h
  · intro h
    rw [readMembers]
    cases h with
    | last hmember hclose =>
      obtain ⟨inner, pieces, colon, following, hquote, hkey, rfl, hcolon, hvalue⟩ := hmember
      simp only [hquote, hkey, hcolon, hvalue, hclose]
    | more hmember hcomma hmembers =>
      obtain ⟨inner, pieces, colon, following, hquote, hkey, rfl, hcolon, hvalue⟩ := hmember
      simp only [hquote, hkey, hcolon, hvalue, hcomma, hmembers]

/-! ## Whole documents -/

/-- What is read to its end has no place where the grammar stops. -/
theorem isWhole_of_read (fuel : Nat) :
    (∀ text doc rest, readValue fuel text = (doc, some rest) → doc.isWhole = true) ∧
    (∀ text items rest, readItems fuel text = (items, some rest) → itemsWhole items = true) ∧
    (∀ text members rest, readMembers fuel text = (members, some rest) →
      membersWhole members = true) := by
  induction fuel with
  | zero => exact ⟨nofun, nofun, nofun⟩
  | succ fuel ih =>
    obtain ⟨hvalue, hitems, hmembers⟩ := ih
    refine ⟨?_, ?_, ?_⟩
    · intro text doc rest h
      cases readValue_eq_some_iff.mp h with
      | emptyArray | emptyObject => rfl
      | array _ hread => exact hitems _ _ _ hread
      | object _ hread => exact hmembers _ _ _ hread
      | scalar _ _ _ hread => cases ScalarStep.of_read hread <;> rfl
    · intro text items rest h
      cases readItems_eq_some_iff.mp h with
      | last hitem _ => simp [itemsWhole, hvalue _ _ _ hitem]
      | more hitem _ hrest => simp [itemsWhole, hvalue _ _ _ hitem, hitems _ _ _ hrest]
    · intro text members rest h
      cases readMembers_eq_some_iff.mp h with
      | last hmember _ =>
        obtain ⟨_, _, _, _, -, -, -, -, hread⟩ := hmember
        simp [membersWhole, hvalue _ _ _ hread]
      | more hmember _ hrest =>
        obtain ⟨_, _, _, _, -, -, -, -, hread⟩ := hmember
        simp [membersWhole, hvalue _ _ _ hread, hmembers _ _ _ hrest]

/-! ## More text -/

/-- The first character that is no space stays the first, whatever comes behind the text. -/
theorem dropSpaces_append {text tail : List Char} {c : Char} (h : dropSpaces text = c :: tail)
    (more : List Char) : dropSpaces (text ++ more) = c :: (tail ++ more) := by
  rw [dropSpaces] at h ⊢
  rw [List.dropWhile_append, h]
  rfl

/-- What a reader makes of a text does not change with more fuel and with something after
the text that closes it; what is left grows by that. -/
def Settled {α : Type} (reader : Nat → List Char → α × Option (List Char)) (fuel : Nat) : Prop :=
  ∀ text result rest, reader fuel text = (result, some rest) → ∀ wider, fuel ≤ wider →
    ∀ more, Closes more → reader wider (text ++ more) = (result, some (rest ++ more))

/-- One more step of the reader settles values. -/
theorem Settled.value {fuel : Nat} (hitems : Settled readItems fuel)
    (hmembers : Settled readMembers fuel) : Settled readValue (fuel + 1) := by
  intro text doc rest h wider hwider more hmore
  -- The wider fuel pays for this step too; what is inside gets the rest of it.
  obtain ⟨wider, rfl⟩ : ∃ n, wider = n + 1 := ⟨wider - 1, by omega⟩
  have hless : fuel ≤ wider := Nat.le_of_succ_le_succ hwider
  refine readValue_eq_some_iff.mpr ?_
  cases readValue_eq_some_iff.mp h with
  | emptyArray hopen hclose =>
    exact .emptyArray (dropSpaces_append hopen more) (dropSpaces_append hclose more)
  | array hopen hread =>
    exact .array (dropSpaces_append hopen more) (hitems _ _ _ hread wider hless more hmore)
  | emptyObject hopen hclose =>
    exact .emptyObject (dropSpaces_append hopen more) (dropSpaces_append hclose more)
  | object hopen hread =>
    exact .object (dropSpaces_append hopen more) (hmembers _ _ _ hread wider hless more hmore)
  | scalar hopen harray hobject hread =>
    exact .scalar (dropSpaces_append hopen more) harray hobject (readScalar_append hread hmore)

theorem Settled.items {fuel : Nat} (hvalue : Settled readValue fuel)
    (hitems : Settled readItems fuel) : Settled readItems (fuel + 1) := by
  intro text items rest h wider hwider more hmore
  obtain ⟨wider, rfl⟩ : ∃ n, wider = n + 1 := ⟨wider - 1, by omega⟩
  have hless : fuel ≤ wider := Nat.le_of_succ_le_succ hwider
  refine readItems_eq_some_iff.mpr ?_
  cases readItems_eq_some_iff.mp h with
  | last hitem hclose =>
    exact .last (hvalue _ _ _ hitem wider hless more hmore) (dropSpaces_append hclose more)
  | more hitem hcomma hrest =>
    exact .more (hvalue _ _ _ hitem wider hless more hmore) (dropSpaces_append hcomma more)
      (hitems _ _ _ hrest wider hless more hmore)

/-- A member is read in the same way before whatever may come behind it. -/
theorem MemberRead.append {fuel wider : Nat} {text left more : List Char} {key : Option String}
    {value : Doc} (h : MemberRead fuel text key value left) (hvalue : Settled readValue fuel)
    (hwider : fuel ≤ wider) (hmore : Closes more) :
    MemberRead wider (text ++ more) key value (left ++ more) := by
  obtain ⟨inner, pieces, colon, following, hquote, hkey, hcontent, hcolon, hread⟩ := h
  exact ⟨inner ++ more, pieces, colon ++ more, following ++ more, dropSpaces_append hquote more,
    readPieces_append hkey more, hcontent, dropSpaces_append hcolon more,
    hvalue _ _ _ hread wider hwider more hmore⟩

theorem Settled.members {fuel : Nat} (hvalue : Settled readValue fuel)
    (hmembers : Settled readMembers fuel) : Settled readMembers (fuel + 1) := by
  intro text members rest h wider hwider more hmore
  obtain ⟨wider, rfl⟩ : ∃ n, wider = n + 1 := ⟨wider - 1, by omega⟩
  have hless : fuel ≤ wider := Nat.le_of_succ_le_succ hwider
  refine readMembers_eq_some_iff.mpr ?_
  cases readMembers_eq_some_iff.mp h with
  | last hmember hclose =>
    exact .last (hmember.append hvalue hless hmore) (dropSpaces_append hclose more)
  | more hmember hcomma hrest =>
    exact .more (hmember.append hvalue hless hmore) (dropSpaces_append hcomma more)
      (hmembers _ _ _ hrest wider hless more hmore)

/-- The readers of values, of items and of members are settled at every fuel. -/
theorem settled (fuel : Nat) :
    Settled readValue fuel ∧ Settled readItems fuel ∧ Settled readMembers fuel := by
  induction fuel with
  | zero => exact ⟨nofun, nofun, nofun⟩
  | succ fuel ih =>
    obtain ⟨hvalue, hitems, hmembers⟩ := ih
    exact ⟨.value hitems hmembers, .items hvalue hitems, .members hvalue hmembers⟩

/-! ## Spellings -/

/-- A text of a JSON value, however it is written. -/
structure Spelling where
  text : String
  whole : (read text).2 = true

/-- The document of a text. -/
def Spelling.doc (spelling : Spelling) : Doc :=
  (read spelling.text).1

/-- A member of an object as it is written, with the name that its key stands for. -/
structure MemberSpelling where
  key : Spelling
  name : String
  named : key.doc = .string (some name)
  value : Spelling

/-- The text of a member. -/
def MemberSpelling.text (member : MemberSpelling) : String :=
  member.key.text ++ ":" ++ member.value.text

/-- The document of a member, with its name. -/
def MemberSpelling.entry (member : MemberSpelling) : Option String × Doc :=
  (some member.name, member.value.doc)

/-- The text of an array whose items are written like this. -/
def arrayText (items : List Spelling) : String :=
  "[" ++ ",".intercalate (items.map Spelling.text) ++ "]"

/-- The text of an object whose members are written like this. -/
def objectText (members : List MemberSpelling) : String :=
  "\x7b" ++ ",".intercalate (members.map MemberSpelling.text) ++ "\x7d"

/-- Blanks before a character are dropped up to it. -/
theorem dropSpaces_blank {left : List Char} (hleft : left.all isSpace = true) {c : Char}
    (hc : isSpace c = false) (more : List Char) : dropSpaces (left ++ c :: more) = c :: more := by
  rw [dropSpaces, List.dropWhile_append_of_pos (List.all_eq_true.mp hleft)]
  exact dropSpaces_cons hc more

/-- A text that stands alone is read to blanks. -/
theorem Spelling.readValue_text (spelling : Spelling) : ∃ left, left.all isSpace = true ∧
    readValue (2 * spelling.text.length + 2) spelling.text.toList = (spelling.doc, some left) := by
  have hwhole := spelling.whole
  have hdoc : spelling.doc = (read spelling.text).1 := rfl
  rw [read] at hwhole hdoc
  rcases hread : readValue (2 * spelling.text.length + 2) spelling.text.toList with ⟨doc, _ | left⟩
  · rw [hread] at hwhole
    cases hwhole
  · rw [hread] at hwhole hdoc
    exact ⟨left, hwhole, by rw [hdoc]⟩

/-- In a container a text is read up to what closes it there. -/
theorem Spelling.reads (spelling : Spelling) : ∃ left, left.all isSpace = true ∧
    ∀ fuel, 2 * spelling.text.length + 2 ≤ fuel → ∀ more, Closes more →
      readValue fuel (spelling.text.toList ++ more) = (spelling.doc, some (left ++ more)) := by
  obtain ⟨left, hleft, hread⟩ := spelling.readValue_text
  exact ⟨left, hleft, (settled _).1 _ _ _ hread⟩

/-- A document that is spelled is a whole one. -/
theorem Spelling.isWhole_doc (spelling : Spelling) : spelling.doc.isWhole = true := by
  obtain ⟨left, -, hread⟩ := spelling.readValue_text
  exact (isWhole_of_read _).1 _ _ _ hread

/-- The key and the value of a member are read up to what closes it. -/
theorem MemberSpelling.reads (member : MemberSpelling) : ∃ left, left.all isSpace = true ∧
    ∀ fuel, 2 * member.text.length + 2 ≤ fuel → ∀ more, Closes more →
      MemberRead fuel (member.text.toList ++ more) (some member.name) member.value.doc
        (left ++ more) := by
  obtain ⟨blank, hblank, hkey⟩ := member.key.readValue_text
  obtain ⟨left, hleft, hvalue⟩ := member.value.reads
  rw [member.named] at hkey
  -- The key is read as a string, and of all the steps only that of a scalar gives one.
  cases readValue_eq_some_iff.mp hkey with
  | scalar hopen _ _ hscalar =>
    cases ScalarStep.of_read hscalar with
    | string hpieces hcontent =>
      refine ⟨left, hleft, fun fuel hfuel more hmore => ?_⟩
      have htext : member.text.toList ++ more
          = member.key.text.toList ++ ':' :: (member.value.text.toList ++ more) := by
        simp [MemberSpelling.text]
      have hlength : member.text.length
          = member.key.text.length + 1 + member.value.text.length := by
        rw [MemberSpelling.text, String.length_append, String.length_append]
        rfl
      rw [htext]
      exact ⟨_, _, _, _, dropSpaces_append hopen _, readPieces_append hpieces _, hcontent,
        dropSpaces_blank hblank rfl _, hvalue fuel (by omega) more hmore⟩

/-- The items of an array are read up to its end. -/
theorem readItems_spelled (items : List Spelling) (hne : items ≠ []) (more : List Char) (fuel : Nat)
    (hfuel : 2 * (",".intercalate (items.map Spelling.text)).length + 3 ≤ fuel) :
    readItems fuel ((",".intercalate (items.map Spelling.text)).toList ++ ']' :: more)
      = (items.map Spelling.doc, some more) := by
  induction items generalizing fuel with
  | nil => exact absurd rfl hne
  | cons item items ih =>
    obtain ⟨fuel, rfl⟩ : ∃ m, fuel = m + 1 := ⟨fuel - 1, by omega⟩
    obtain ⟨left, hleft, hitem⟩ := item.reads
    refine readItems_eq_some_iff.mpr ?_
    cases items with
    | nil =>
      rw [List.map_singleton, String.intercalate_singleton] at hfuel ⊢
      exact .last (hitem fuel (by omega) _ (.bracket more)) (dropSpaces_blank hleft rfl more)
    | cons next items =>
      rw [List.map_cons, List.map_cons, String.intercalate_cons_cons, ← List.map_cons,
        String.length_append, String.length_append, show ",".length = 1 from rfl] at hfuel
      rw [List.map_cons, List.map_cons, String.intercalate_cons_cons, ← List.map_cons,
        String.toList_append, String.toList_append, List.append_assoc, List.append_assoc]
      -- The fuel is counted in characters, and the comma alone makes up for the step.
      have hrest := ih (List.cons_ne_nil next items) fuel (by omega)
      exact .more (hitem fuel (by omega) _ (.comma _)) (dropSpaces_blank hleft rfl _) hrest

/-- The members of an object are read up to its end. -/
theorem readMembers_spelled (members : List MemberSpelling) (hne : members ≠ [])
    (more : List Char) (fuel : Nat)
    (hfuel : 2 * (",".intercalate (members.map MemberSpelling.text)).length + 3 ≤ fuel) :
    readMembers fuel ((",".intercalate (members.map MemberSpelling.text)).toList ++ '}' :: more)
      = (members.map MemberSpelling.entry, some more) := by
  induction members generalizing fuel with
  | nil => exact absurd rfl hne
  | cons member members ih =>
    obtain ⟨fuel, rfl⟩ : ∃ m, fuel = m + 1 := ⟨fuel - 1, by omega⟩
    obtain ⟨left, hleft, hmember⟩ := member.reads
    refine readMembers_eq_some_iff.mpr ?_
    cases members with
    | nil =>
      rw [List.map_singleton, String.intercalate_singleton] at hfuel ⊢
      exact .last (hmember fuel (by omega) _ (.brace more)) (dropSpaces_blank hleft rfl more)
    | cons next members =>
      rw [List.map_cons, List.map_cons, String.intercalate_cons_cons, ← List.map_cons,
        String.length_append, String.length_append, show ",".length = 1 from rfl] at hfuel
      rw [List.map_cons, List.map_cons, String.intercalate_cons_cons, ← List.map_cons,
        String.toList_append, String.toList_append, List.append_assoc, List.append_assoc]
      have hrest := ih (List.cons_ne_nil next members) fuel (by omega)
      exact .more (hmember fuel (by omega) _ (.comma _)) (dropSpaces_blank hleft rfl _) hrest

/-- An array is read as the array of what its items are read as. -/
theorem read_arrayText (items : List Spelling) :
    read (arrayText items) = (.array (items.map Spelling.doc), true) := by
  cases items with
  | nil => rfl
  | cons item items =>
    have hitems := readItems_spelled (item :: items) (List.cons_ne_nil item items) []
      (2 * (arrayText (item :: items)).length + 1) (by
        rw [arrayText, String.length_append, String.length_append]
        have hopen : "[".length = 1 := rfl
        omega)
    have hvalue : ValueStep (2 * (arrayText (item :: items)).length + 1)
        (arrayText (item :: items)).toList (.array ((item :: items).map Spelling.doc)) [] := by
      refine .array ?_ hitems
      rw [arrayText, String.toList_append, String.toList_append]
      rfl
    rw [read, readValue_eq_some_iff.mpr hvalue]
    rfl

/-- An object is read as the object of what its members are read as. -/
theorem read_objectText (members : List MemberSpelling) :
    read (objectText members) = (.object (members.map MemberSpelling.entry), true) := by
  cases members with
  | nil => rfl
  | cons member members =>
    have hmembers := readMembers_spelled (member :: members) (List.cons_ne_nil member members) []
      (2 * (objectText (member :: members)).length + 1) (by
        rw [objectText, String.length_append, String.length_append]
        have hopen : "\x7b".length = 1 := rfl
        omega)
    have hvalue : ValueStep (2 * (objectText (member :: members)).length + 1)
        (objectText (member :: members)).toList
        (.object ((member :: members).map MemberSpelling.entry)) [] := by
      refine .object ?_ hmembers
      rw [objectText, String.toList_append, String.toList_append]
      rfl
    rw [read, readValue_eq_some_iff.mpr hvalue]
    rfl

/-- The text of an array, put together from those of its items. -/
def Spelling.array (items : List Spelling) : Spelling where
  text := arrayText items
  whole := by rw [read_arrayText]

/-- The text of an object, put together from those of its members. -/
def Spelling.object (members : List MemberSpelling) : Spelling where
  text := objectText members
  whole := by rw [read_objectText]

theorem Spelling.doc_array (items : List Spelling) :
    (Spelling.array items).doc = .array (items.map Spelling.doc) :=
  congrArg Prod.fst (read_arrayText items)

theorem Spelling.doc_object (members : List MemberSpelling) :
    (Spelling.object members).doc = .object (members.map MemberSpelling.entry) :=
  congrArg Prod.fst (read_objectText members)

end BoundSql.Json
