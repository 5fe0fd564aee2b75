import BoundSql.Proofs.Scanning

/-!
# The characters of literals

A value that is not bound is written into the statement. Numbers and truth
values are spelled with letters, digits, points and minus signs alone, and a
comma stands between the items of a list. Every other character of a literal
comes from a text of the caller:

> `Value.mem_literal`: what is neither plain nor a comma stands in one of the
> `Value.texts`.
-/

namespace BoundSql

/-- The characters of which numbers are spelled. -/
def Decimal.isPlain (c : Char) : Bool :=
  c.isAlphanum || c == '-' || c == '.'

namespace Value

mutual

/-- The texts in a value, however deep. -/
def texts : Value → List String
  | text s => [s]
  | list items => itemTexts items
  | _ => []

/-- The texts in the items of a list. -/
def itemTexts : List Value → List String
  | [] => []
  | item :: rest => item.texts ++ itemTexts rest

end

end Value

namespace Decimal

theorem isPlain_of_isDigit {c : Char} (h : c.isDigit = true) : isPlain c = true := by
  simp [isPlain, Char.isAlphanum, h]

/-- A text is plain if a look at each of its characters says so. -/
theorem plain_of_all {text : String} (h : text.toList.all isPlain = true) :
    ∀ c ∈ text.toList, isPlain c = true :=
  List.all_eq_true.mp h

theorem plain_toString_nat (n : Nat) : ∀ c ∈ (toString n).toList, isPlain c = true :=
  fun c hc => isPlain_of_isDigit (Placeholder.toString_digits n c hc)

/-- Whole numbers are written with plain characters, the sign included. -/
theorem plain_toString_int (n : Int) : ∀ c ∈ (toString n).toList, isPlain c = true := by
  intro c hc
  cases n with
  | ofNat m => exact plain_toString_nat m c hc
  | negSucc m =>
    have hsign : (toString (Int.negSucc m)).toList = '-' :: (toString (m + 1)).toList := by
      show ("-" ++ toString (m + 1)).toList = _
      rw [String.toList_append]
      rfl
    rw [hsign] at hc
    rcases List.mem_cons.mp hc with rfl | hc
    · decide
    · exact plain_toString_nat (m + 1) c hc

theorem plain_zeros (n : Nat) : ∀ c ∈ zeros n, isPlain c = true := by
  intro c hc
  rw [List.eq_of_mem_replicate hc]
  decide

/-- A number in positional form is spelled with digits and at most a point. -/
theorem plain_positional (s : Scaled) : ∀ c ∈ (s.positional "").toList, isPlain c = true := by
  have hdigits := plain_toString_nat s.digits
  intro c hc
  -- The point stands behind the digits, among them, or in front of them.
  unfold Scaled.positional at hc
  dsimp only at hc
  split at hc
  · rw [String.append_empty, String.toList_ofList, List.mem_append] at hc
    rcases hc with hc | hc
    · exact hdigits c hc
    · exact plain_zeros _ c hc
  · split at hc
    · rw [String.toList_ofList, List.mem_append, List.mem_cons] at hc
      rcases hc with hc | rfl | hc
      · exact hdigits c (List.mem_of_mem_take hc)
      · decide
      · exact hdigits c (List.mem_of_mem_drop hc)
    · rw [String.toList_append, List.mem_append] at hc
      rcases hc with hc | hc
      · exact plain_of_all rfl c hc
      · rw [String.toList_ofList, List.mem_append] at hc
        rcases hc with hc | hc
        · exact plain_zeros _ c hc
        · exact hdigits c hc

/-- The literal of a double is spelled with plain characters. -/
theorem plain_text (x : Float) : ∀ c ∈ (text Value.floatStyle x).toList, isPlain c = true := by
  intro c hc
  unfold text at hc
  split at hc
  · exact plain_of_all rfl c hc
  · split at hc
    · exact plain_of_all rfl c hc
    · exact plain_of_all rfl c hc
  · rw [String.toList_append, List.mem_append] at hc
    rcases hc with hc | hc
    · split at hc
      · exact plain_of_all rfl c hc
      · exact plain_of_all rfl c hc
    · exact plain_positional _ c hc

end Decimal

namespace Value

mutual

/-- A character of a literal is plain, a comma, or from a text of the caller. -/
theorem mem_literal (value : Value) : ∀ c ∈ value.literal.toList,
    Decimal.isPlain c = true ∨ c = ',' ∨ ∃ s ∈ value.texts, c ∈ s.toList := by
  intro c hc
  cases value with
  | null => exact Or.inl (Decimal.plain_of_all rfl c hc)
  | bool b =>
    left
    cases b with
    | true => exact Decimal.plain_of_all rfl c hc
    | false => exact Decimal.plain_of_all rfl c hc
  | int n => exact Or.inl (Decimal.plain_toString_int n.toInt c hc)
  | float x => exact Or.inl (Decimal.plain_text x c hc)
  | text s => exact Or.inr (Or.inr ⟨s, by simp [texts], hc⟩)
  | list items =>
    rw [literal] at hc
    -- The comma is written by the list itself, all else by its items.
    rcases Placeholder.mem_intercalate hc with hc | ⟨item, hitem, hc⟩
    · exact Or.inr (Or.inl (List.mem_singleton.mp hc))
    · rw [texts]
      exact mem_literals items item hitem c hc

theorem mem_literals (items : List Value) : ∀ literal ∈ literals items, ∀ c ∈ literal.toList,
    Decimal.isPlain c = true ∨ c = ',' ∨ ∃ s ∈ itemTexts items, c ∈ s.toList := by
  intro literal hliteral c hc
  cases items with
  | nil => cases hliteral
  | cons item rest =>
    rw [literals, List.mem_cons] at hliteral
    rw [itemTexts]
    rcases hliteral with rfl | hliteral
    · rcases mem_literal item c hc with h | h | ⟨s, hs, h⟩
      · exact Or.inl h
      · exact Or.inr (Or.inl h)
      · exact Or.inr (Or.inr ⟨s, List.mem_append_left _ hs, h⟩)
    · rcases mem_literals rest literal hliteral c hc with h | h | ⟨s, hs, h⟩
      · exact Or.inl h
      · exact Or.inr (Or.inl h)
      · exact Or.inr (Or.inr ⟨s, List.mem_append_right _ hs, h⟩)

end

/-- A literal is silent if the texts in the value are. -/
theorem silent_literal {value : Value} (h : ∀ s ∈ value.texts, Placeholder.Silent s) :
    Placeholder.Silent value.literal := by
  intro hc
  rcases mem_literal value ':' hc with hplain | hcomma | ⟨s, hs, hc⟩
  · revert hplain
    decide
  · revert hcomma
    decide
  · exact h s hs hc

end Value

end BoundSql
