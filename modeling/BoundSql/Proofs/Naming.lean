import BoundSql.Proofs.Planning
import BoundSql.Clause.Page

/-!
# What placeholders look like

Whatever the column, a placeholder is a colon followed by word characters.
What the library adds to the column tells the kinds of placeholders apart:

> `mem_slots_endsInDigit`: every name of a criterion ends in a digit, since its
> position or its index is written last.

The two names of a page end in a letter, so a criterion never takes them.
-/

namespace BoundSql

namespace Placeholder

/-- A colon followed by word characters and nothing else. -/
def IsName (name : String) : Prop :=
  ∃ word : List Char, name.toList = ':' :: word ∧ ∀ c ∈ word, isWordChar c = true

/-- The last character is a decimal digit. -/
def EndsInDigit (name : String) : Prop :=
  ∃ c, name.toList.getLast? = some c ∧ c.isDigit = true

theorem isWordChar_of_isDigit {c : Char} (h : c.isDigit = true) : isWordChar c = true := by
  simp [isWordChar, Char.isAlphanum, h]

/-- A stem is made of word characters, whatever the column is. -/
theorem stem_word (column : String) : ∀ c ∈ (stem column).toList, isWordChar c = true := by
  intro c hc
  rw [stem, String.toList_ofList] at hc
  -- A character that is no word character was replaced by one.
  obtain ⟨d, -, rfl⟩ := List.mem_map.mp hc
  exact isWordChar_wordChar d

theorem toString_digits (n : Nat) : ∀ c ∈ (toString n).toList, c.isDigit = true := by
  intro c hc
  rw [Nat.toString_eq_repr, Nat.toList_repr] at hc
  exact Nat.isDigit_of_mem_toDigits (by decide) (by decide) hc

theorem toString_word (n : Nat) : ∀ c ∈ (toString n).toList, isWordChar c = true :=
  fun c hc => isWordChar_of_isDigit (toString_digits n c hc)

/-- A name stays a name when word characters are written after it. -/
theorem IsName.append {name text : String} (h : IsName name)
    (ht : ∀ c ∈ text.toList, isWordChar c = true) : IsName (name ++ text) := by
  obtain ⟨word, hname, hword⟩ := h
  refine ⟨word ++ text.toList, by rw [String.toList_append, hname, List.cons_append], ?_⟩
  intro c hc
  rcases List.mem_append.mp hc with hc | hc
  · exact hword c hc
  · exact ht c hc

/-- A stem behind a colon is a name. -/
theorem isName_stem (column : String) : IsName (":" ++ stem column) := by
  have hcolon : IsName ":" := ⟨[], rfl, fun c hc => by cases hc⟩
  exact hcolon.append (stem_word column)

theorem isName_ofCriterion (column : String) (position : Nat) :
    IsName (ofCriterion column position) :=
  (isName_stem column).append (toString_word position)

theorem isName_ofElement (column : String) (position index : Nat) :
    IsName (ofElement column position index) :=
  ((isName_stem column).append (toString_word position)).append (toString_word index)

/-- An assignment has a name, with or without a row. -/
theorem isName_ofAssignment (column : String) (row : Option Nat) :
    IsName (ofAssignment column row) := by
  cases row with
  | none => exact isName_stem column
  | some row => exact (isName_stem column).append (toString_word row)

/-- A number written last leaves a digit at the end. -/
theorem endsInDigit_append_toString (text : String) (n : Nat) :
    EndsInDigit (text ++ toString n) := by
  -- Even zero is written with a digit, so the number has a last one.
  have hne : (toString n).toList ≠ [] := by
    rw [Nat.toString_eq_repr, Nat.toList_repr]
    exact Nat.toDigits_ne_nil
  refine ⟨(toString n).toList.getLast hne, ?_, toString_digits n _ (List.getLast_mem hne)⟩
  rw [String.toList_append, List.getLast?_append, List.getLast?_eq_some_getLast hne]
  rfl

/-- The name of a criterion ends in its position. -/
theorem endsInDigit_ofCriterion (column : String) (position : Nat) :
    EndsInDigit (ofCriterion column position) :=
  endsInDigit_append_toString _ position

/-- The name of a list element ends in its index. -/
theorem endsInDigit_ofElement (column : String) (position index : Nat) :
    EndsInDigit (ofElement column position index) :=
  endsInDigit_append_toString _ index

end Placeholder

open Placeholder

/-! ## The names of a page -/

/-- A page has no names but its two. -/
theorem Page.mem_names {page : Page} {name : String} (h : name ∈ page.names) :
    name = Placeholder.start ∨ name = Placeholder.limit := by
  rw [names, List.mem_append] at h
  rcases h with h | h
  · split at h
    · exact Or.inl (List.mem_singleton.mp h)
    · cases h
  · split at h
    · cases h
    · exact Or.inr (List.mem_singleton.mp h)

theorem Placeholder.isName_start : IsName Placeholder.start :=
  ⟨"start".toList, rfl, List.all_eq_true.mp rfl⟩

theorem Placeholder.isName_limit : IsName Placeholder.limit :=
  ⟨"limit".toList, rfl, List.all_eq_true.mp rfl⟩

/-- No name of a page ends in a digit. -/
theorem Page.not_endsInDigit_of_mem_names {page : Page} {name : String} (h : name ∈ page.names) :
    ¬ EndsInDigit name := by
  intro hdigit
  obtain ⟨c, hlast, hdigit⟩ := hdigit
  -- Both names end in the same letter.
  have ht : name.toList.getLast? = some 't' := by
    rcases mem_names h with rfl | rfl
    · rfl
    · rfl
  rw [ht, Option.some.injEq] at hlast
  subst hlast
  cases hdigit

theorem Page.nodup_names (page : Page) : page.names.Nodup := by
  have hne : Placeholder.start ≠ Placeholder.limit := by decide
  unfold names
  split <;> split <;> simp [hne]

/-! ## The names of a criterion -/

/-- A slot is named after the column, the position and, in a list, the index. -/
theorem Criterion.mem_slots {criterion : Criterion} {comparison : Comparison} {position : Nat}
    {slot : Binding} (h : slot ∈ criterion.slots comparison position) :
    slot.name = ofCriterion criterion.column position ∨
      ∃ index, slot.name = ofElement criterion.column position index := by
  unfold slots at h
  split at h
  · split at h
    · cases h
    · obtain ⟨⟨item, index⟩, -, rfl⟩ := List.mem_map.mp h
      exact Or.inr ⟨index, rfl⟩
    · rw [List.mem_singleton.mp h]
      exact Or.inl rfl
  · cases h

/-- The slots of a criterion have names. -/
theorem Criterion.isName_of_mem_slots {criterion : Criterion} {comparison : Comparison}
    {position : Nat} {slot : Binding} (h : slot ∈ criterion.slots comparison position) :
    IsName slot.name := by
  rcases mem_slots h with hname | ⟨index, hname⟩
  · exact hname ▸ isName_ofCriterion _ _
  · exact hname ▸ isName_ofElement _ _ _

theorem Criterion.mem_slots_endsInDigit {criterion : Criterion} {comparison : Comparison}
    {position : Nat} {slot : Binding} (h : slot ∈ criterion.slots comparison position) :
    EndsInDigit slot.name := by
  rcases mem_slots h with hname | ⟨index, hname⟩
  · exact hname ▸ endsInDigit_ofCriterion _ _
  · exact hname ▸ endsInDigit_ofElement _ _ _

/-- The names of a whole criteria list are well formed and end in a digit. -/
theorem planned_names {policy : Policy} {criteria : List Criterion} {name : String}
    (h : name ∈ (planned policy criteria).flatMap Plan.names) :
    IsName name ∧ EndsInDigit name := by
  obtain ⟨plan, hplan, hname⟩ := List.mem_flatMap.mp h
  obtain ⟨slot, hslot, rfl⟩ := List.mem_map.mp hname
  obtain ⟨i, criterion, -, -, rfl⟩ := mem_plannedFrom hplan
  exact ⟨Criterion.isName_of_mem_slots hslot, Criterion.mem_slots_endsInDigit hslot⟩

end BoundSql
