import BoundSql.Json.Doc
import Mathlib.Data.List.Basic
import Mathlib.Tactic.Common

/-!
# JSON text reads back

The compact text of a value is read back as the document of that value, with
nothing left over and nothing added. This is said of values without doubles:
their texts are exact. The induction is on the value, and it is carried out for
a text with something after it, because that is how the parts of a container
stand in it. What comes after a value is either nothing, a comma or the end of a
container, so that a number ends where its digits end.

The fuel of the reader is counted off by the characters it reads: a value takes
no more than its text is long.
-/

namespace BoundSql.Json

/-- A value without doubles, whose whole numbers are within 64 bits. -/
inductive Exact : Json → Prop
  | null : Exact .null
  | bool (b : Bool) : Exact (.bool b)
  | int {n : Int} (low : Int64.minValue.toInt ≤ n) (high : n < UInt64.size) : Exact (.int n)
  | string (s : String) : Exact (.string s)
  | array {items : List Json} (exact : ∀ item ∈ items, Exact item) : Exact (.array items)
  | object {members : List (String × Json)} (exact : ∀ member ∈ members, Exact member.2) :
    Exact (.object members)

/-- The literal of a whole number. -/
def Literal.ofInt (n : Int) : Literal :=
  ⟨n < 0, Nat.toDigits 10 n.natAbs, [], none⟩

mutual

/-- The document of a value. A double has the one that is read from its text. -/
def doc : Json → Doc
  | null => .null
  | bool b => .bool b
  | int n => .number (.ofInt n)
  | float x => (readScalar (Decimal.text floatStyle x).toList).1
  | string s => .string (some s)
  | array items => .array (itemDocs items)
  | object members => .object (memberDocs members)

/-- The documents of the items of an array. -/
def itemDocs : List Json → List Doc
  | [] => []
  | item :: rest => item.doc :: itemDocs rest

/-- The documents of the members of an object, with their keys. -/
def memberDocs : List (String × Json) → List (Option String × Doc)
  | [] => []
  | (key, value) :: rest => (some key, value.doc) :: memberDocs rest

end

/-- What may follow a value: nothing, or what comes after it in a container. -/
inductive Closes : List Char → Prop
  | nothing : Closes []
  | comma (rest : List Char) : Closes (',' :: rest)
  | bracket (rest : List Char) : Closes (']' :: rest)
  | brace (rest : List Char) : Closes ('}' :: rest)

/-! ## Strings -/

/-- The piece of a string that stands for one character, whatever follows it. -/
def Piece.Gives (piece : Piece) (c : Char) : Prop :=
  ∀ rest, joinPieces (piece :: rest) = (joinPieces rest).map (c :: ·)

theorem Piece.char_gives (c : Char) : (Piece.char c).Gives c :=
  fun _ => rfl

/-- A unit far below the pairs stands for a character by itself. -/
theorem Piece.unit_gives {c : Char} (h : c.toNat < 0x20) : (Piece.unit c.toNat).Gives c := by
  have hlead : isLeading c.toNat = false := by
    simp only [isLeading, Bool.and_eq_false_imp, decide_eq_true_eq, decide_eq_false_iff_not]
    omega
  have htrail : isTrailing c.toNat = false := by
    simp only [isTrailing, Bool.and_eq_false_imp, decide_eq_true_eq, decide_eq_false_iff_not]
    omega
  intro rest
  rcases rest with _ | ⟨_ | low, rest⟩ <;>
    simp [joinPieces, hlead, htrail, Char.ofNat_toNat]

/-- A control character is read back from its two digits. -/
theorem hexNumber?_control :
    ∀ n < 0x20, Text.hexNumber? ['0', '0', Nat.digitChar (n / 16), Nat.digitChar (n % 16)]
      = some n := by
  decide

/-- A character is written as a short escape, as the number of a unit or as it is. -/
theorem escaped_cases (c : Char) :
    (∃ e, escaped c = ['\\', e] ∧ e ≠ 'u' ∧ shortEscape? e = some c) ∨
    (c.toNat < 0x20 ∧ escaped c = ['\\', 'u', '0', '0', Nat.digitChar (c.toNat / 16),
      Nat.digitChar (c.toNat % 16)]) ∨
    (escaped c = [c] ∧ c ≠ '\x22' ∧ c ≠ '\\' ∧ ¬ c.toNat < 0x20) := by
  unfold escaped
  split_ifs with hquote hslash hback hfeed hline hreturn htab hlow
  case pos => subst hquote; exact .inl ⟨_, rfl, by decide, rfl⟩
  case pos => subst hslash; exact .inl ⟨_, rfl, by decide, rfl⟩
  case pos => subst hback; exact .inl ⟨_, rfl, by decide, rfl⟩
  case pos => subst hfeed; exact .inl ⟨_, rfl, by decide, rfl⟩
  case pos => subst hline; exact .inl ⟨_, rfl, by decide, rfl⟩
  case pos => subst hreturn; exact .inl ⟨_, rfl, by decide, rfl⟩
  case pos => subst htab; exact .inl ⟨_, rfl, by decide, rfl⟩
  case pos => exact .inr (.inl ⟨hlow, rfl⟩)
  case neg => exact .inr (.inr ⟨rfl, hquote, hslash, hlow⟩)

/-- What is written for a character is read as one piece that stands for it. -/
theorem readPieces_escaped (c : Char) : ∃ piece : Piece, piece.Gives c ∧
    ∀ text, readPieces (escaped c ++ text)
      = (readPieces text).map fun read => (piece :: read.1, read.2) := by
  rcases escaped_cases c with ⟨e, hc, hu, he⟩ | ⟨hlow, hc⟩ | ⟨hc, hquote, hslash, hlow⟩
  · refine ⟨.char c, Piece.char_gives c, fun text => ?_⟩
    rw [hc]
    cases htext : readPieces text <;> simp [readPieces, hu, he, htext]
  · refine ⟨.unit c.toNat, Piece.unit_gives hlow, fun text => ?_⟩
    rw [hc]
    cases htext : readPieces text <;> simp [readPieces, hexNumber?_control _ hlow, htext]
  · refine ⟨.char c, Piece.char_gives c, fun text => ?_⟩
    rw [hc]
    cases htext : readPieces text <;> simp [readPieces, hquote, hslash, hlow, htext]

/-- A string between its quotes is read back up to the closing one. -/
theorem readPieces_quoted (content text : List Char) : ∃ pieces,
    readPieces (content.flatMap escaped ++ '\x22' :: text) = some (pieces, text) ∧
    joinPieces pieces = some content := by
  induction content with
  | nil => exact ⟨[], by simp [readPieces], rfl⟩
  | cons c content ih =>
    obtain ⟨piece, hgives, hpiece⟩ := readPieces_escaped c
    obtain ⟨pieces, hread, hjoin⟩ := ih
    refine ⟨piece :: pieces, ?_, ?_⟩
    · rw [List.flatMap_cons, List.append_assoc, hpiece, hread]
      rfl
    · rw [hgives, hjoin]
      rfl

/-- The same with the content as a string. -/
theorem readPieces_string (s : String) (text : List Char) : ∃ pieces,
    readPieces (s.toList.flatMap escaped ++ '\x22' :: text) = some (pieces, text) ∧
    contentOfPieces pieces = some s := by
  obtain ⟨pieces, hread, hjoin⟩ := readPieces_quoted s.toList text
  exact ⟨pieces, hread, by simp [contentOfPieces, hjoin]⟩

/-! ## Whole numbers -/

/-- Only zero starts with the digit zero. -/
theorem toDigits_of_pos (n : Nat) (h : 0 < n) :
    ∃ d rest, Nat.toDigits 10 n = d :: rest ∧ d ≠ '0' := by
  induction n using Nat.strongRecOn with
  | ind n ih =>
    by_cases hn : n < 10
    · refine ⟨_, [], Nat.toDigits_of_lt_base hn, ?_⟩
      exact (by decide : ∀ n < 10, 0 < n → Nat.digitChar n ≠ '0') n hn h
    · obtain ⟨d, rest, hd, hzero⟩ := ih (n / 10) (by omega) (by omega)
      refine ⟨d, rest ++ [Nat.digitChar (n % 10)], ?_, hzero⟩
      rw [Nat.toDigits_of_base_le (by decide) (by omega), hd, List.cons_append]

theorem digitsValue_toDigits (n : Nat) : digitsValue (Nat.toDigits 10 n) = n := by
  rw [digitsValue]
  exact (@Nat.ofDigitChars_eq_foldl 10 _ 0).symm.trans Nat.ofDigitChars_ten_toDigits

/-- Digits are read up to what closes the value. -/
theorem readDigits_toDigits (n : Nat) {text : List Char} (h : Closes text) :
    readDigits (Nat.toDigits 10 n ++ text) = (Nat.toDigits 10 n, text) := by
  have hdigits : ∀ c ∈ Nat.toDigits 10 n, c.isDigit = true :=
    fun c hc => Nat.isDigit_of_mem_toDigits (by decide) (by decide) hc
  rw [readDigits, List.takeWhile_append_of_pos hdigits, List.dropWhile_append_of_pos hdigits]
  cases h <;> simp

/-- The figures of a number are read up to what closes it. -/
theorem readWhole_toDigits (n : Nat) {text : List Char} (h : Closes text) :
    readWhole (Nat.toDigits 10 n ++ text) = some (Nat.toDigits 10 n, text) := by
  rw [readWhole, readDigits_toDigits n h]
  rcases Nat.eq_zero_or_pos n with rfl | hn
  · rfl
  · obtain ⟨d, rest, hd, hzero⟩ := toDigits_of_pos n hn
    rw [hd]
    split <;> simp_all

theorem readLiteral_toDigits (negative : Bool) (n : Nat) {text : List Char} (h : Closes text) :
    readLiteral negative (Nat.toDigits 10 n ++ text)
      = some (⟨negative, Nat.toDigits 10 n, [], none⟩, text) := by
  rw [readLiteral, readWhole_toDigits n h]
  cases h <;> rfl

theorem toList_toString_int (n : Int) :
    (toString n).toList = if n < 0 then '-' :: Nat.toDigits 10 n.natAbs
      else Nat.toDigits 10 n.natAbs := by
  cases n with
  | ofNat n => simp [Int.toString_eq_repr, Int.repr_eq_if]
  | negSucc n => simp [Int.toString_eq_repr, Int.repr_eq_if]

/-- A number has a first figure. -/
theorem toDigits_head (n : Nat) : ∃ d rest, Nat.toDigits 10 n = d :: rest ∧ d.isDigit = true := by
  rcases hd : Nat.toDigits 10 n with _ | ⟨d, rest⟩
  · exact absurd hd Nat.toDigits_ne_nil
  · have hmem : d ∈ Nat.toDigits 10 n := hd ▸ List.mem_cons_self
    exact ⟨d, rest, rfl, Nat.isDigit_of_mem_toDigits (by decide) (by decide) hmem⟩

/-- The text of a whole number starts with a digit or the sign. -/
theorem int_chars_head (n : Int) : ∃ c rest, (toString n).toList = c :: rest ∧
    (c.isDigit = true ∨ c = '-') := by
  rw [toList_toString_int]
  split
  · exact ⟨'-', _, rfl, .inr rfl⟩
  · obtain ⟨d, rest, hd, hdigit⟩ := toDigits_head n.natAbs
    exact ⟨d, rest, hd, .inl hdigit⟩

/-- Without a sign in front, a number is its literal. -/
theorem readNumber_of_literal {text rest : List Char} {literal : Literal}
    (hsign : text.head? ≠ some '-') (hread : readLiteral false text = some (literal, rest)) :
    readNumber text = (.number literal, some rest) := by
  unfold readNumber
  split
  · simp at hsign
  · rw [hread]

/-- A whole number with its sign is read back. -/
theorem readNumber_int (n : Int) {text : List Char} (h : Closes text) :
    readNumber ((toString n).toList ++ text) = (.number (.ofInt n), some text) := by
  rw [toList_toString_int]
  by_cases hn : n < 0
  · rw [if_pos hn, List.cons_append, readNumber]
    simp only [readLiteral_toDigits true _ h, Literal.ofInt, hn, decide_true]
  · obtain ⟨d, rest, hd, hdigit⟩ := toDigits_head n.natAbs
    have hsign : (Nat.toDigits 10 n.natAbs ++ text).head? ≠ some '-' := by
      rw [hd, List.cons_append, List.head?_cons]
      rintro ⟨⟩
      exact absurd hdigit (by decide)
    rw [if_neg hn, readNumber_of_literal hsign (readLiteral_toDigits false _ h)]
    simp [Literal.ofInt, hn]

/-- More figures make no smaller number. -/
theorem le_foldl_digits (significand : Nat) (digits : List Char) :
    significand ≤ digits.foldl (fun n c => 10 * n + digitValue c) significand := by
  induction digits generalizing significand with
  | nil => exact Nat.le_refl _
  | cons c rest ih =>
    have hrest := ih (10 * significand + digitValue c)
    rw [List.foldl_cons]
    omega

/-- The digits of a number that fits are all taken into the significand. -/
theorem absorb_of_fits (significand : Nat) (digits : List Char)
    (h : digits.foldl (fun n c => 10 * n + digitValue c) significand < Nat.pow 2 64) :
    absorb significand digits
      = (digits.foldl (fun n c => 10 * n + digitValue c) significand, []) := by
  induction digits generalizing significand with
  | nil => rfl
  | cons c rest ih =>
    rw [List.foldl_cons] at h ⊢
    have hnext := le_foldl_digits (10 * significand + digitValue c) rest
    have hcomm : significand * 10 + digitValue c = 10 * significand + digitValue c := by omega
    -- The number only grows from here on, so the next digit fits too.
    rw [absorb, hcomm, if_pos (Nat.lt_of_le_of_lt hnext h), ih _ h]

/-- The value of the literal of a whole number within 64 bits. -/
theorem Literal.value?_ofInt {n : Int} (low : Int64.minValue.toInt ≤ n)
    (high : n < UInt64.size) : (Literal.ofInt n).value? = some (.int n) := by
  have hmin : Int64.minValue.toInt = -((Nat.pow 2 63 : Nat) : Int) := by decide
  have hsize : UInt64.size = Nat.pow 2 63 + Nat.pow 2 63 := by decide
  have hpow : Nat.pow 2 64 = UInt64.size := by decide
  have habsorb : absorb 0 (Nat.toDigits 10 n.natAbs) = (n.natAbs, []) := by
    have hvalue := digitsValue_toDigits n.natAbs
    rw [digitsValue] at hvalue
    rw [absorb_of_fits, hvalue]
    rw [hvalue, hpow]
    omega
  by_cases hn : n < 0
  · have hdouble : ¬ (n.natAbs = 0 ∨ Nat.pow 2 63 < n.natAbs) := by omega
    simp only [Literal.value?, Literal.ofInt, habsorb, List.isEmpty_nil, Option.isNone_none,
      Bool.and_self, if_true, hn, decide_true, Bool.not_true, Bool.false_eq_true, if_false, hdouble]
    congr 2
    omega
  · simp only [Literal.value?, Literal.ofInt, habsorb, List.isEmpty_nil, Option.isNone_none,
      Bool.and_self, if_true, hn, decide_false, Bool.not_false]
    congr 2
    omega

/-! ## Values -/

theorem dropSpaces_cons {c : Char} (h : isSpace c = false) (rest : List Char) :
    dropSpaces (c :: rest) = c :: rest :=
  List.dropWhile_cons_of_neg (by simp [h])

/-- What starts a number is no blank and neither opens nor closes a container. -/
theorem number_head {c : Char} (h : c.isDigit = true ∨ c = '-') :
    isSpace c = false ∧ c ≠ ']' ∧ c ≠ '[' ∧ c ≠ '{' := by
  rcases h with h | rfl
  · have hne : ∀ d : Char, d.isDigit = false → c ≠ d := by
      rintro d hd rfl
      exact absurd h (by simp [hd])
    refine ⟨?_, hne _ rfl, hne _ rfl, hne _ rfl⟩
    simp [isSpace, hne ' ' rfl, hne '\n' rfl, hne '\t' rfl, hne '\r' rfl]
  · decide

/-- A scalar is read by its first character, which is no blank and opens no container. -/
theorem readValue_scalar {c : Char} {rest : List Char} (fuel : Nat) (hspace : isSpace c = false)
    (harray : c ≠ '[') (hobject : c ≠ '{') :
    readValue (fuel + 1) (c :: rest) = readScalar (c :: rest) := by
  rw [readValue, dropSpaces, List.dropWhile_cons_of_neg (by simp [hspace])]
  split <;> simp_all

theorem readScalar_int (n : Int) {text : List Char} (h : Closes text) :
    readScalar ((toString n).toList ++ text) = (.number (.ofInt n), some text) := by
  obtain ⟨c, rest, hc, hdigit⟩ := int_chars_head n
  have hnumber := readNumber_int n h
  rw [hc, List.cons_append] at hnumber ⊢
  unfold readScalar
  split <;> simp_all

/-- A text stands for a value: it is read as the document of the value, and what
follows it is left. -/
def ReadsBack (value : Json) : Prop :=
  ∀ fuel rest, value.chars.length ≤ fuel → Closes rest →
    readValue fuel (value.chars ++ rest) = (value.doc, some rest)

/-- The first character of a value is no blank and closes no array. -/
theorem chars_head {value : Json} (h : value.Exact) : ∃ c rest, value.chars = c :: rest ∧
    isSpace c = false ∧ c ≠ ']' := by
  cases h with
  | null => exact ⟨_, _, rfl, rfl, by decide⟩
  | bool b => cases b <;> exact ⟨_, _, rfl, rfl, by decide⟩
  | @int n =>
    obtain ⟨c, rest, hc, hnumber⟩ := int_chars_head n
    obtain ⟨hspace, hclose, -, -⟩ := number_head hnumber
    exact ⟨c, rest, by rw [chars, hc], hspace, hclose⟩
  | string s => exact ⟨_, _, rfl, rfl, by decide⟩
  | array => exact ⟨_, _, rfl, rfl, by decide⟩
  | object => exact ⟨_, _, rfl, rfl, by decide⟩

theorem itemChars_cons_cons (item next : Json) (rest : List Json) :
    itemChars (item :: next :: rest) = item.chars ++ ',' :: itemChars (next :: rest) := by
  simp [itemChars]

/-- The first character of items is no blank and does not close their array. -/
theorem itemChars_head {item : Json} {items : List Json}
    (h : ∀ other ∈ item :: items, other.Exact) : ∃ c rest, itemChars (item :: items) = c :: rest ∧
      isSpace c = false ∧ c ≠ ']' := by
  obtain ⟨c, rest, hc, hhead⟩ := chars_head (h item List.mem_cons_self)
  cases items with
  | nil => exact ⟨c, rest, by rw [itemChars, hc], hhead⟩
  | cons next items => exact ⟨c, _, by rw [itemChars_cons_cons, hc, List.cons_append], hhead⟩

theorem memberChars_cons_cons (member next : String × Json) (rest : List (String × Json)) :
    memberChars (member :: next :: rest)
      = quotedChars member.1 ++ ':' :: (member.2.chars ++ ',' :: memberChars (next :: rest)) := by
  simp [memberChars]

theorem quotedChars_append (s : String) (text : List Char) :
    quotedChars s ++ text = '\x22' :: (s.toList.flatMap escaped ++ '\x22' :: text) := by
  simp [quotedChars]

/-- The members of an object begin with the quotes of a name. -/
theorem memberChars_head (member : String × Json) (members : List (String × Json)) :
    ∃ rest, memberChars (member :: members) = '\x22' :: rest := by
  cases members with
  | nil => exact ⟨_, by rw [memberChars, quotedChars_append]⟩
  | cons next members => exact ⟨_, by rw [memberChars_cons_cons, quotedChars_append]⟩

/-- The items of an array are read up to its end. -/
theorem readItems_itemChars (rest : List Char) (items : List Json) (hne : items ≠ [])
    (hitems : ∀ item ∈ items, item.ReadsBack) (fuel : Nat)
    (hfuel : (itemChars items).length + 1 ≤ fuel) :
    readItems fuel (itemChars items ++ ']' :: rest) = (itemDocs items, some rest) := by
  induction items generalizing fuel with
  | nil => exact absurd rfl hne
  | cons item items ih =>
    obtain ⟨fuel, rfl⟩ : ∃ m, fuel = m + 1 := ⟨fuel - 1, by omega⟩
    have hitem := hitems item List.mem_cons_self
    cases items with
    | nil =>
      rw [itemChars] at hfuel ⊢
      rw [readItems, hitem fuel _ (by omega) (.bracket rest)]
      rfl
    | cons next items =>
      rw [itemChars_cons_cons] at hfuel ⊢
      simp only [List.length_append, List.length_cons] at hfuel
      have hread := ih (List.cons_ne_nil _ _) (fun other h => hitems other (.tail _ h)) fuel
        (by omega)
      rw [List.append_assoc, List.cons_append, readItems, hitem fuel _ (by omega) (.comma _)]
      simp only [dropSpaces_cons (show isSpace ',' = false from rfl), hread]
      rfl

/-- A member is read with what closes its value: here the end of the object. -/
theorem readMembers_last (key : String) {value : Json} {fuel : Nat} (hvalue : value.ReadsBack)
    (hfuel : value.chars.length ≤ fuel) (rest : List Char) :
    readMembers (fuel + 1) (quotedChars key ++ ':' :: (value.chars ++ '}' :: rest))
      = ([(some key, value.doc)], some rest) := by
  obtain ⟨pieces, hread, hcontent⟩ := readPieces_string key (':' :: (value.chars ++ '}' :: rest))
  rw [quotedChars_append, readMembers]
  simp only [dropSpaces_cons (show isSpace '\x22' = false from rfl), hread, hcontent,
    dropSpaces_cons (show isSpace ':' = false from rfl), hvalue fuel _ hfuel (.brace rest),
    dropSpaces_cons (show isSpace '}' = false from rfl)]

/-- After a comma the other members follow. -/
theorem readMembers_more (key : String) {value : Json} {fuel : Nat} (hvalue : value.ReadsBack)
    (hfuel : value.chars.length ≤ fuel) (text : List Char) :
    readMembers (fuel + 1) (quotedChars key ++ ':' :: (value.chars ++ ',' :: text))
      = ((some key, value.doc) :: (readMembers fuel text).1, (readMembers fuel text).2) := by
  obtain ⟨pieces, hread, hcontent⟩ := readPieces_string key (':' :: (value.chars ++ ',' :: text))
  rw [quotedChars_append, readMembers]
  simp only [dropSpaces_cons (show isSpace '\x22' = false from rfl), hread, hcontent,
    dropSpaces_cons (show isSpace ':' = false from rfl), hvalue fuel _ hfuel (.comma text),
    dropSpaces_cons (show isSpace ',' = false from rfl)]

/-- The members of an object are read up to its end. -/
theorem readMembers_memberChars (rest : List Char) (members : List (String × Json))
    (hne : members ≠ []) (hmembers : ∀ member ∈ members, member.2.ReadsBack) (fuel : Nat)
    (hfuel : (memberChars members).length + 1 ≤ fuel) :
    readMembers fuel (memberChars members ++ '}' :: rest) = (memberDocs members, some rest) := by
  induction members generalizing fuel with
  | nil => exact absurd rfl hne
  | cons member members ih =>
    obtain ⟨fuel, rfl⟩ : ∃ m, fuel = m + 1 := ⟨fuel - 1, by omega⟩
    have hmember := hmembers member List.mem_cons_self
    cases members with
    | nil =>
      rw [memberChars] at hfuel ⊢
      simp only [List.length_append, List.length_cons] at hfuel
      rw [List.append_assoc, List.cons_append, readMembers_last member.1 hmember (by omega)]
      rfl
    | cons next members =>
      rw [memberChars_cons_cons] at hfuel ⊢
      simp only [List.length_append, List.length_cons] at hfuel
      have hread := ih (List.cons_ne_nil _ _) (fun other h => hmembers other (.tail _ h)) fuel
        (by omega)
      rw [List.append_assoc, List.cons_append, List.append_assoc, List.cons_append,
        readMembers_more member.1 hmember (by omega), hread]
      rfl

/-- An array reads back if its items do. -/
theorem readValue_array {items : List Json} (hitems : ∀ item ∈ items, item.Exact)
    (hread : ∀ item ∈ items, item.ReadsBack) : (array items).ReadsBack := by
  intro fuel rest hfuel _
  rw [chars] at hfuel ⊢
  simp only [List.length_append, List.length_cons, List.length_nil] at hfuel
  obtain ⟨fuel, rfl⟩ : ∃ m, fuel = m + 1 := ⟨fuel - 1, by omega⟩
  rw [List.append_assoc, List.cons_append, List.singleton_append, readValue,
    dropSpaces_cons (by rfl)]
  rcases items with _ | ⟨item, items⟩
  · rfl
  · have hall := readItems_itemChars rest (item :: items) (List.cons_ne_nil _ _) hread fuel
      (by omega)
    -- The end of the array is looked for first, and items do not begin with it.
    obtain ⟨c, text, hc, hspace, hclose⟩ := itemChars_head hitems
    rw [hc, List.cons_append] at hall ⊢
    simp only [dropSpaces_cons hspace]
    split
    · simp_all
    · simp_all [doc]

/-- An object reads back if the values of its members do. -/
theorem readValue_object {members : List (String × Json)}
    (hread : ∀ member ∈ members, member.2.ReadsBack) : (object members).ReadsBack := by
  intro fuel rest hfuel _
  rw [chars] at hfuel ⊢
  simp only [List.length_append, List.length_cons, List.length_nil] at hfuel
  obtain ⟨fuel, rfl⟩ : ∃ m, fuel = m + 1 := ⟨fuel - 1, by omega⟩
  rw [List.append_assoc, List.cons_append, List.singleton_append, readValue,
    dropSpaces_cons (by rfl)]
  rcases members with _ | ⟨member, members⟩
  · rfl
  · have hall := readMembers_memberChars rest (member :: members) (List.cons_ne_nil _ _) hread
      fuel (by omega)
    obtain ⟨text, hc⟩ := memberChars_head member members
    rw [hc, List.cons_append] at hall ⊢
    simp only [dropSpaces_cons (show isSpace '\x22' = false from rfl)]
    split
    · simp_all
    · simp_all [doc]

/-- The text of a value is read back, whatever closes it. -/
theorem readsBack {value : Json} (h : value.Exact) : value.ReadsBack := by
  induction h with
  | null =>
    rintro (_ | fuel) rest hfuel -
    · exact absurd hfuel (by decide)
    · rfl
  | bool b =>
    rintro (_ | fuel) rest hfuel -
    · cases b <;> exact absurd hfuel (by decide)
    · cases b <;> rfl
  | @int n =>
    intro fuel rest hfuel hrest
    obtain ⟨c, text, hc, hnumber⟩ := int_chars_head n
    obtain ⟨hspace, -, harray, hobject⟩ := number_head hnumber
    have hread := readScalar_int n hrest
    rw [chars, hc] at hfuel ⊢
    rw [hc] at hread
    obtain ⟨fuel, rfl⟩ : ∃ m, fuel = m + 1 := ⟨fuel - 1, by simp at hfuel; omega⟩
    exact (readValue_scalar fuel hspace harray hobject).trans hread
  | string s =>
    intro fuel rest hfuel _
    obtain ⟨pieces, hread, hcontent⟩ := readPieces_string s rest
    rw [chars] at hfuel ⊢
    obtain ⟨fuel, rfl⟩ : ∃ m, fuel = m + 1 := ⟨fuel - 1, by simp [quotedChars] at hfuel; omega⟩
    rw [quotedChars_append, readValue_scalar fuel rfl (by decide) (by decide), readScalar, hread]
    simp only [hcontent, doc]
  | array hitems ih => exact readValue_array hitems ih
  | object _ ih => exact readValue_object ih

/-- The text of a value is read back as the document of the value and nothing else. -/
theorem read_text {value : Json} (h : value.Exact) : read value.text = (value.doc, true) := by
  have hread := readsBack h (2 * value.text.length + 2) []
    (by rw [text, String.length_ofList]; omega) .nothing
  rw [List.append_nil] at hread
  rw [read, text, String.toList_ofList, ← text, hread]
  rfl

end BoundSql.Json
