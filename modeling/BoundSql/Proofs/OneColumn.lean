import BoundSql.Proofs.Collision
import BoundSql.Proofs.Secrecy

/-!
# Criteria on one column

Where all criteria name the same column, only the counters after the stem keep
their placeholders apart: the position of the criterion and, for an element of
a list, its index. Both are written as decimals with nothing between them, so
the element 0 of a list in the first place is counted `10`, as is a single
value in the tenth.

> `Where.one_column_compiles_iff`: criteria on one column that pass their own
> checks compile, unless a value of a list is counted by the same text as a
> value further back. They are refused for nothing but that.

Of two counters with the same text the one in front ends its position within
the other, so the position of the other has at least one digit more
(`Counter.of_text_eq`). Single values never meet, nor do nine criteria or fewer.
-/

namespace BoundSql

open Placeholder

/-! ## Decimals -/

/-- Digits that are read on do not make a number smaller, and any at all make it ten times
as large. -/
theorem le_ofDigitChars : ∀ (digits : List Char) (init : Nat),
    init ≤ Nat.ofDigitChars 10 digits init ∧
      (digits ≠ [] → 10 * init ≤ Nat.ofDigitChars 10 digits init) := by
  intro digits
  induction digits with
  | nil => exact fun init => ⟨Nat.le_refl init, fun h => absurd rfl h⟩
  | cons digit rest ih =>
    intro init
    have hrest := (ih (10 * init + (digit.toNat - '0'.toNat))).1
    rw [Nat.ofDigitChars_cons]
    omega

theorem toDigits_injective {n m : Nat} (h : Nat.toDigits 10 n = Nat.toDigits 10 m) : n = m := by
  have hvalue := congrArg (Nat.ofDigitChars 10 · 0) h
  simpa only [Nat.ofDigitChars_ten_toDigits] using hvalue

/-- A decimal that goes on with digits is that of what they make of its number. -/
theorem eq_ofDigitChars_of_toDigits {n m : Nat} {digits : List Char}
    (h : Nat.toDigits 10 n = Nat.toDigits 10 m ++ digits) : n = Nat.ofDigitChars 10 digits m := by
  have hvalue := congrArg (Nat.ofDigitChars 10 · 0) h
  simpa only [Nat.ofDigitChars_append, Nat.ofDigitChars_ten_toDigits] using hvalue

/-! ## Counters -/

/-- What tells the placeholders of one column apart: the position of a criterion, counted
from 1, and for an element of a list its index, counted from 0. -/
structure Counter where
  position : Nat
  index : Option Nat
  deriving DecidableEq, Repr

namespace Counter

/-- The text of a counter, in which nothing stands between position and index. -/
def text (counter : Counter) : String :=
  toString counter.position ++ counter.index.elim "" toString

/-- An element of a list has the same text as a value of a criterion further back. -/
def RunsInto (counter later : Counter) : Prop :=
  counter.position < later.position ∧ counter.index.isSome ∧ counter.text = later.text

instance (counter later : Counter) : Decidable (counter.RunsInto later) :=
  inferInstanceAs (Decidable (_ ∧ _ ∧ _))

/-- The digits of the index, if there is one. -/
def indexDigits (counter : Counter) : List Char :=
  counter.index.elim [] (Nat.toDigits 10)

/-- A counter is written as the figures of the position with those of the index behind them. -/
theorem toList_text (counter : Counter) :
    counter.text.toList = Nat.toDigits 10 counter.position ++ counter.indexDigits := by
  obtain ⟨position, index⟩ := counter
  unfold text indexDigits
  rw [String.toList_append, Nat.toString_eq_repr, Nat.toList_repr]
  cases index with
  | none => rfl
  | some index =>
    show _ ++ (toString index).toList = _
    rw [Nat.toString_eq_repr, Nat.toList_repr]
    rfl

variable {counter later : Counter}

/-- In one position the index can be read off the text. -/
theorem eq_of_text_eq (hposition : counter.position = later.position)
    (htext : counter.text = later.text) : counter = later := by
  have hlists := congrArg String.toList htext
  rw [toList_text, toList_text, hposition, List.append_cancel_left_eq] at hlists
  obtain ⟨position, index⟩ := counter
  obtain ⟨position', index'⟩ := later
  dsimp only at hposition
  subst hposition
  cases index with
  | none =>
    cases index' with
    | none => rfl
    | some index' => exact absurd hlists.symm Nat.toDigits_ne_nil
  | some index =>
    cases index' with
    | none => exact absurd hlists Nat.toDigits_ne_nil
    | some index' => rw [toDigits_injective hlists]

/-- **Where counters meet.** Of two counters with the same text the first has an index, of
which the other position takes some digits. -/
theorem of_text_eq (hposition : counter.position < later.position)
    (htext : counter.text = later.text) :
    counter.index.isSome ∧ 10 * counter.position ≤ later.position := by
  have hlists := congrArg String.toList htext
  rw [toList_text, toList_text] at hlists
  rcases List.append_eq_append_iff.mp hlists with hlater | hcounter
  · obtain ⟨digits, hdigits, hindex⟩ := hlater
    have hne : digits ≠ [] := by
      intro hnil
      rw [hnil, List.append_nil] at hdigits
      have := toDigits_injective hdigits
      omega
    refine ⟨?_, ?_⟩
    · rw [Option.isSome_iff_ne_none]
      intro hnone
      rw [indexDigits, hnone] at hindex
      exact hne (List.append_eq_nil_iff.mp hindex.symm).1
    · rw [eq_ofDigitChars_of_toDigits hdigits]
      exact (le_ofDigitChars digits counter.position).2 hne
  -- The position further back cannot be the shorter one.
  · obtain ⟨digits, hdigits, -⟩ := hcounter
    have hle := (le_ofDigitChars digits later.position).1
    rw [← eq_ofDigitChars_of_toDigits hdigits] at hle
    omega

end Counter

/-! ## The counters of criteria -/

/-- The counters of a criterion at a position: one for each value that it binds. -/
def Criterion.counters (policy : Policy) (position : Nat) (criterion : Criterion) :
    List Counter :=
  if (criterion.effectiveComparison policy).takesValue then
    match criterion.value with
    | none => []
    | some (.list items) => (List.range items.length).map fun index => ⟨position, some index⟩
    | some _ => [⟨position, none⟩]
  else []

/-- The counters of criteria from a position on. -/
def countersFrom (policy : Policy) : Nat → List Criterion → List Counter
  | _, [] => []
  | position, criterion :: rest =>
    criterion.counters policy position ++ countersFrom policy (position + 1) rest

/-- The counters of a criteria list. -/
def counters (policy : Policy) (criteria : List Criterion) : List Counter :=
  countersFrom policy 1 criteria

section Counters

variable {policy : Policy}

/-- The names of a criterion are its counters behind the stem of its column. -/
theorem Criterion.names_planned (position : Nat) (criterion : Criterion) :
    (criterion.planned policy position).names
      = (criterion.counters policy position).map fun counter =>
          ":" ++ stem criterion.column ++ counter.text := by
  show (criterion.slots _ position).map Binding.name = _
  rw [names_slots]
  unfold counters
  split
  · rcases criterion.value with _ | value
    · rfl
    · cases value with
      | list items =>
        show (List.range (items.map Value.isList).length).map _ = _
        rw [List.length_map, List.map_map]
        refine List.map_congr_left fun index _ => ?_
        exact String.append_assoc
      | _ =>
        -- A single value has no index to write.
        show _ = [":" ++ stem criterion.column ++ (toString position ++ "")]
        rw [String.append_empty]
        rfl
  · rfl

/-- On one column the names of a list differ in their counters alone. -/
theorem names_plannedFrom {column : String} : ∀ {criteria : List Criterion} (position : Nat),
    (∀ criterion ∈ criteria, criterion.column = column) →
      (plannedFrom policy position criteria).flatMap Plan.names
        = (countersFrom policy position criteria).map fun counter =>
            ":" ++ stem column ++ counter.text := by
  intro criteria
  induction criteria with
  | nil => intro position _; rfl
  | cons criterion rest ih =>
    intro position hcolumn
    obtain ⟨hfirst, hrest⟩ := List.forall_mem_cons.mp hcolumn
    rw [plannedFrom, List.flatMap_cons, ih _ hrest, criterion.names_planned, hfirst, countersFrom,
      List.map_append]

/-- All counters of a criterion have its position. -/
theorem Criterion.position_of_mem_counters {criterion : Criterion} {position : Nat}
    {counter : Counter} (h : counter ∈ criterion.counters policy position) :
    counter.position = position := by
  unfold counters at h
  split at h
  · split at h
    · cases h
    · obtain ⟨index, -, rfl⟩ := List.mem_map.mp h
      rfl
    · rw [List.mem_singleton.mp h]
  · cases h

theorem Criterion.nodup_counters (criterion : Criterion) (position : Nat) :
    (criterion.counters policy position).Nodup := by
  unfold counters
  split
  · split
    · exact List.nodup_nil
    · refine List.nodup_range.map fun index index' h => ?_
      injection h with _ h
      injection h
    · exact List.nodup_singleton _
  · exact List.nodup_nil

/-- Counters from a position on have no position outside of those of the list. -/
theorem position_of_mem_countersFrom {counter : Counter} :
    ∀ {criteria : List Criterion} {position : Nat},
      counter ∈ countersFrom policy position criteria →
        position ≤ counter.position ∧ counter.position < position + criteria.length := by
  intro criteria
  induction criteria with
  | nil => intro position h; cases h
  | cons criterion rest ih =>
    intro position h
    rw [List.length_cons]
    rcases List.mem_append.mp h with h | h
    · have hposition := Criterion.position_of_mem_counters h
      omega
    · obtain ⟨hlow, hhigh⟩ := ih h
      omega

/-- No two values have the same counter. -/
theorem nodup_countersFrom : ∀ (criteria : List Criterion) (position : Nat),
    (countersFrom policy position criteria).Nodup := by
  intro criteria
  induction criteria with
  | nil => exact fun position => List.nodup_nil
  | cons criterion rest ih =>
    intro position
    refine List.nodup_append.mpr ⟨criterion.nodup_counters position, ih (position + 1), ?_⟩
    intro counter hcounter later hlater hsame
    have hposition := Criterion.position_of_mem_counters hcounter
    obtain ⟨hlow, -⟩ := position_of_mem_countersFrom hlater
    rw [← hsame] at hlow
    omega

/-- The texts of the counters repeat only where one runs into another. -/
theorem nodup_text_iff {criteria : List Criterion} :
    ((counters policy criteria).map Counter.text).Nodup ↔
      ¬ ∃ counter ∈ counters policy criteria, ∃ later ∈ counters policy criteria,
        counter.RunsInto later := by
  have hcounters : (counters policy criteria).Nodup := nodup_countersFrom criteria 1
  rw [List.nodup_map_iff_inj_on hcounters]
  constructor
  · intro hdistinct hmeet
    obtain ⟨counter, hcounter, later, hlater, hposition, -, htext⟩ := hmeet
    rw [hdistinct counter hcounter later hlater htext] at hposition
    exact Nat.lt_irrefl _ hposition
  · intro hapart counter hcounter later hlater htext
    rcases Nat.lt_trichotomy counter.position later.position with hlt | heq | hgt
    · exact absurd ⟨counter, hcounter, later, hlater, hlt, (Counter.of_text_eq hlt htext).1, htext⟩
        hapart
    · exact Counter.eq_of_text_eq heq htext
    · have htext' := htext.symm
      exact absurd
        ⟨later, hlater, counter, hcounter, hgt, (Counter.of_text_eq hgt htext').1, htext'⟩ hapart

/-- Only a list gives a counter an index. -/
theorem Criterion.index_of_mem_counters {criterion : Criterion} {position : Nat}
    {counter : Counter} (h : counter ∈ criterion.counters policy position)
    (hindex : counter.index.isSome) :
    (criterion.effectiveComparison policy).takesValue = true ∧
      ∃ items, criterion.value = some (.list items) := by
  unfold counters at h
  split at h
  · next htakes =>
    split at h
    · cases h
    · next items hvalue => exact ⟨htakes, items, hvalue⟩
    · rw [List.mem_singleton.mp h] at hindex
      cases hindex
  · cases h

/-- A counter comes from a criterion at its position. -/
theorem mem_countersFrom {counter : Counter} : ∀ {criteria : List Criterion} {position : Nat},
    counter ∈ countersFrom policy position criteria →
      ∃ criterion ∈ criteria, counter ∈ criterion.counters policy counter.position := by
  intro criteria
  induction criteria with
  | nil => intro position h; cases h
  | cons criterion rest ih =>
    intro position h
    rcases List.mem_append.mp h with h | h
    · exact ⟨criterion, List.mem_cons_self, (Criterion.position_of_mem_counters h).symm ▸ h⟩
    · obtain ⟨other, hother, hcounter⟩ := ih h
      exact ⟨other, List.mem_cons_of_mem _ hother, hcounter⟩

end Counters

/-! ## Compiling -/

namespace Where

variable {policy : Policy} {column : String} {criteria : List Criterion}

/-- The names of criteria on one column repeat where the texts of their counters do. -/
theorem nodup_names_iff (hcolumn : ∀ criterion ∈ criteria, criterion.column = column) :
    ((planned policy criteria).flatMap Plan.names).Nodup ↔
      ((counters policy criteria).map Counter.text).Nodup := by
  have hinjective : Function.Injective ((":" ++ stem column) ++ ·) :=
    fun _ _ h => (String.append_right_inj _).mp h
  have hnames : (planned policy criteria).flatMap Plan.names
      = ((counters policy criteria).map Counter.text).map ((":" ++ stem column) ++ ·) := by
    rw [List.map_map]
    exact names_plannedFrom 1 hcolumn
  rw [hnames, List.nodup_map_iff hinjective]

/-- **One column.** Criteria on one column that pass their own checks compile exactly when
no value of a list runs into a value further back, and are refused for a collision if they
do not. So they compile where no list is bound, and where they are nine or fewer. -/
theorem one_column_compiles_iff (hcolumn : ∀ criterion ∈ criteria, criterion.column = column)
    (hchecks : ∀ criterion ∈ criteria, criterion.check policy = .ok ()) :
    ((∃ clause, compile policy criteria = .ok clause) ↔
        ¬ ∃ counter ∈ counters policy criteria, ∃ later ∈ counters policy criteria,
          counter.RunsInto later) ∧
      (∀ fault, compile policy criteria = .error fault → fault.code = .placeholderCollision) ∧
      ((∀ criterion ∈ criteria, (criterion.effectiveComparison policy).takesValue = true →
          ∀ items, criterion.value ≠ some (.list items)) →
        ∃ clause, compile policy criteria = .ok clause) ∧
      (criteria.length ≤ 9 → ∃ clause, compile policy criteria = .ok clause) := by
  have hrefuses := compile_refusesRepeats hchecks
  have hcompiles : (∃ clause, compile policy criteria = .ok clause) ↔
      ¬ ∃ counter ∈ counters policy criteria, ∃ later ∈ counters policy criteria,
        counter.RunsInto later := by
    rw [← nodup_text_iff, ← nodup_names_iff hcolumn, ← not_iff_not, ← hrefuses.refused_iff]
    cases compile policy criteria with
    | error fault => simp
    | ok clause => simp
  refine ⟨hcompiles, hrefuses.code, fun hscalars => hcompiles.mpr ?_,
    fun hlength => hcompiles.mpr ?_⟩
  · intro hmeet
    obtain ⟨counter, hcounter, _, -, -, hindex, -⟩ := hmeet
    obtain ⟨criterion, hcriterion, hcounter⟩ := mem_countersFrom hcounter
    obtain ⟨htakes, items, hvalue⟩ := Criterion.index_of_mem_counters hcounter hindex
    exact hscalars criterion hcriterion htakes items hvalue
  · intro hmeet
    obtain ⟨counter, hcounter, later, hlater, hposition, -, htext⟩ := hmeet
    -- Positions start at 1, so what runs into a position runs into 10 or more.
    obtain ⟨hlow, -⟩ := position_of_mem_countersFrom hcounter
    obtain ⟨-, hhigh⟩ := position_of_mem_countersFrom hlater
    obtain ⟨-, hten⟩ := Counter.of_text_eq hposition htext
    omega

/-- A list in the first place, and a single value in the last of some places. -/
def listFirst (between : Nat) : List Criterion :=
  Criterion.isIn "a" [.int 1]
    :: (List.replicate between (Criterion.isNull "a") ++ [Criterion.equals "a" (.int 2)])

/-- There is nothing that the list runs into before the tenth place. -/
theorem one_column_compiles_iff_listFirst :
    (∀ criterion ∈ listFirst 7, criterion.column = "a") ∧
      (∀ criterion ∈ listFirst 7, criterion.check {} = .ok ()) ∧
      (∃ clause, compile {} (listFirst 7) = .ok clause) ∧
      ¬ ∃ counter ∈ counters {} (listFirst 7), ∃ later ∈ counters {} (listFirst 7),
        counter.RunsInto later := by
  have hcolumn : ∀ criterion ∈ listFirst 7, criterion.column = "a" := by decide
  have hchecks : ∀ criterion ∈ listFirst 7, criterion.check {} = .ok () := by decide
  obtain ⟨hcompiles, -, -, hnine⟩ := one_column_compiles_iff hcolumn hchecks
  have hclause := hnine (by decide)
  exact ⟨hcolumn, hchecks, hclause, hcompiles.mp hclause⟩

/-- In the tenth place the value meets the element of the list. -/
theorem one_column_collides :
    (∀ criterion ∈ listFirst 8, criterion.column = "a") ∧
      (∀ criterion ∈ listFirst 8, criterion.check {} = .ok ()) ∧
      compile {} (listFirst 8)
        = .error ((Fault.of (.placeholderCollision ":a10")).atPosition 10) ∧
      (Fault.of (.placeholderCollision ":a10")).code = .placeholderCollision ∧
      ¬ ∃ clause, compile {} (listFirst 8) = .ok clause := by
  have hcompile : compile {} (listFirst 8)
      = .error ((Fault.of (.placeholderCollision ":a10")).atPosition 10) := by rfl
  refine ⟨by decide, by decide, hcompile, rfl, fun h => ?_⟩
  obtain ⟨clause, hclause⟩ := h
  rw [hcompile] at hclause
  cases hclause

end Where

end BoundSql
