import BoundSql.Proofs.ClauseReading
import BoundSql.Proofs.Secrecy
import Mathlib.Data.List.Infix

/-!
# Texts that say what they are made of

What is written of an item is `Legible` when nothing else could have been
written in the same place: two texts that begin with it and go on behind a fence
are equal only if the items look alike, and then they go on alike. That is more
than different items having different texts, and it is what lets a reader go on
from left to right.

A condition is legible as long as its column is spelled with letters, digits,
underscores, points and backticks. It begins with the column, up to the first
blank, and no operator with the signs that come after it is a beginning of
another such text (`Comparison.opening_inj`). Connectives end at the blank
behind them, so rows of legible items are legible too:

> `legible_condition`: conditions are legible.

> `Legible.row`: a row tells its connectives, its items and where it ends.
-/

namespace BoundSql

open Placeholder

/-! ## Legible texts -/

/-- What is written of an item, with anything behind a fence after it, could not have been
written of an item that looks different. -/
def Legible {α β : Type} (valid : α → Prop) (write : α → String) (view : α → β) : Prop :=
  ∀ ⦃a b : α⦄, valid a → valid b → ∀ ⦃rest rest' : List Char⦄, Fenced rest → Fenced rest' →
    (write a).toList ++ rest = (write b).toList ++ rest' → view a = view b ∧ rest = rest'

/-- Two runs of characters of one kind, each ended by another kind, are the same. -/
theorem run_inj {p : Char → Bool} {run run' rest rest' : List Char}
    (hrun : ∀ c ∈ run, p c = true) (hrun' : ∀ c ∈ run', p c = true)
    (hrest : ∀ c ∈ rest.head?, p c = false) (hrest' : ∀ c ∈ rest'.head?, p c = false)
    (h : run ++ rest = run' ++ rest') : run = run' ∧ rest = rest' := by
  have htake : ∀ {run rest : List Char}, (∀ c ∈ run, p c = true) →
      (∀ c ∈ rest.head?, p c = false) → (run ++ rest).takeWhile p = run := by
    intro run rest hrun hrest
    rw [List.takeWhile_append_of_pos hrun]
    cases rest with
    | nil => rw [List.takeWhile_nil, List.append_nil]
    | cons c rest =>
      rw [List.takeWhile_cons_of_neg (by rw [hrest c rfl]; decide), List.append_nil]
  have hsame : run = run' := by rw [← htake hrun hrest, h, htake hrun' hrest']
  subst hsame
  exact ⟨rfl, List.append_cancel_left h⟩

theorem fenced_blank (rest : List Char) : Fenced (' ' :: rest) := fenced_cons (by decide)

/-! ## Operators -/

/-- Connectives are told apart by their written forms. -/
theorem Connective.sql_inj {first second : Connective} (h : first.sql = second.sql) :
    first = second := by
  have hread := ofSql?_sql first
  rw [h, ofSql?_sql, Option.some.injEq] at hread
  exact hread.symm

/-- A connective is one word. -/
theorem Connective.no_blank (connective : Connective) :
    ∀ c ∈ connective.sql.toList, (c != ' ') = true := by
  cases connective <;> simp [sql]

/-- A connective ends at the blank after it. -/
theorem Connective.blank_inj {first second : Connective} {rest rest' : List Char}
    (h : first.sql.toList ++ ' ' :: rest = second.sql.toList ++ ' ' :: rest') :
    first = second ∧ rest = rest' := by
  have hblank : ∀ rest : List Char, ∀ c ∈ (' ' :: rest).head?, (c != ' ') = false := by
    intro rest c hc
    rw [List.head?_cons, Option.mem_some] at hc
    subst hc
    decide
  obtain ⟨hsql, hrest⟩ := run_inj first.no_blank second.no_blank (hblank rest) (hblank rest') h
  exact ⟨sql_inj (String.toList_inj.mp hsql), (List.cons.inj hrest).2⟩

/-- A comparison with the signs by which its placeholders begin. -/
def Comparison.opening (comparison : Comparison) : List Char :=
  (comparison.sql ++
    if comparison.takesList then " (:" else if comparison.takesValue then " :" else "").toList

/-- None of these is a beginning of another. -/
theorem Comparison.opening_inj {first second : Comparison}
    (h : first.opening <+: second.opening) : first = second := by
  have hall : ∀ op ∈ all, ∀ op' ∈ all, op.opening <+: op'.opening → op = op' := by
    decide +kernel
  exact hall first (mem_all first) second (mem_all second) h

/-! ## Conditions -/

/-- The characters of which a plain column is spelled. -/
def isColumnChar (c : Char) : Bool :=
  isWordChar c || c == '.' || c == Text.backtick

/-- What a reader can tell of a condition. -/
structure Condition where
  column : String
  comparison : Comparison
  names : List String
  deriving DecidableEq, Repr

/-- The condition of a plan as a reader sees it. -/
def Plan.seen (plan : Plan) : Condition :=
  ⟨plan.criterion.column, plan.comparison, plan.names⟩

/-- A plan with a plain column, whose names are as many as its comparison writes. -/
structure Plan.Readable (plan : Plan) : Prop where
  column : ∀ c ∈ plan.criterion.column.toList, isColumnChar c = true
  names : ∀ name ∈ plan.names, IsName name
  listed : plan.comparison.takesList = true → plan.names ≠ []
  single : plan.comparison.takesList = false → plan.comparison.takesValue = true →
    ∃ name, plan.names = [name]
  none : plan.comparison.takesValue = false → plan.names = []

/-- What lets lists through looks at a value. -/
theorem Comparison.takesValue_of_takesList {comparison : Comparison}
    (h : comparison.takesList = true) : comparison.takesValue = true := by
  cases comparison <;> first | rfl | cases h

/-- A criterion that passes the checks has a name for each placeholder that is written. -/
theorem Criterion.readable_planned {policy : Policy} {criterion : Criterion} {position : Nat}
    (h : criterion.cause? policy = none)
    (hcolumn : ∀ c ∈ criterion.column.toList, isColumnChar c = true) :
    (criterion.planned policy position).Readable := by
  have hvalue := valueCause?_of_cause? h
  have hnames : (criterion.planned policy position).names
      = (criterion.slots (criterion.effectiveComparison policy) position).map Binding.name := rfl
  have hcomparison : (criterion.planned policy position).comparison
      = criterion.effectiveComparison policy := rfl
  generalize criterion.effectiveComparison policy = comparison at *
  refine ⟨hcolumn, ?_, ?_, ?_, ?_⟩
  · rw [hnames]
    intro name hname
    obtain ⟨slot, hslot, rfl⟩ := List.mem_map.mp hname
    exact isName_of_mem_slots hslot
  · rw [hcomparison, hnames]
    intro hlist
    have htakes := Comparison.takesValue_of_takesList hlist
    have hvalue := hvalue htakes
    unfold slots
    rw [if_pos htakes]
    cases hcase : criterion.value with
    | none =>
      rw [hcase] at hvalue
      cases hvalue
    | some value =>
      cases value with
      | list items =>
        -- An empty list does not pass the checks.
        cases items with
        | nil =>
          rw [hcase, valueCause?, hlist] at hvalue
          cases hvalue
        | cons item rest => simp
      | _ => simp
  · rw [hcomparison, hnames]
    intro hlist htakes
    have hvalue := hvalue htakes
    unfold slots
    rw [if_pos htakes]
    cases hcase : criterion.value with
    | none =>
      rw [hcase] at hvalue
      cases hvalue
    | some value =>
      cases value with
      | list items =>
        rw [hcase, valueCause?, hlist] at hvalue
        cases hvalue
      | _ => exact ⟨_, rfl⟩
  · rw [hcomparison, hnames]
    intro htakes
    unfold slots
    rw [if_neg (by rw [htakes]; decide)]
    rfl

namespace Plan.Readable

variable {plan plan' : Plan} {rest rest' : List Char}

/-- The operator and the placeholders begin with the signs of the comparison. -/
theorem opening_prefix (h : plan.Readable) (rest : List Char) :
    plan.comparison.opening
      <+: plan.comparison.sql.toList ++ (plan.placeholders.toList ++ rest) := by
  unfold Comparison.opening
  rw [String.toList_append, List.prefix_append_right_inj, placeholders_eq]
  have hcolon : ∀ {name : String}, name ∈ plan.names → ∃ word, name.toList = ':' :: word :=
    fun hname => (h.names _ hname).imp fun _ hword => hword.1
  cases hlist : plan.comparison.takesList with
  | true =>
    rw [if_pos rfl, if_pos rfl]
    obtain ⟨name, others, hnames⟩ := List.exists_cons_of_ne_nil (h.listed hlist)
    obtain ⟨word, hword⟩ := hcolon (hnames ▸ List.mem_cons_self)
    cases others with
    | nil => simp [hnames, hword]
    | cons next others => simp [hnames, hword]
  | false =>
    rw [if_neg Bool.false_ne_true, if_neg Bool.false_ne_true]
    cases htakes : plan.comparison.takesValue with
    | true =>
      obtain ⟨name, hnames⟩ := h.single hlist htakes
      obtain ⟨word, hword⟩ := hcolon (hnames ▸ List.mem_cons_self)
      simp [hnames, hword]
    | false => simp

/-- The placeholders after one comparison tell the names. -/
theorem placeholders_inj (h : plan.Readable) (h' : plan'.Readable)
    (hcomparison : plan.comparison = plan'.comparison) (hrest : Fenced rest)
    (hrest' : Fenced rest')
    (hsame : plan.placeholders.toList ++ rest = plan'.placeholders.toList ++ rest') :
    plan.names = plan'.names ∧ rest = rest' := by
  rw [placeholders_eq, placeholders_eq, ← hcomparison] at hsame
  have hlisted := h'.listed
  have hsingle := h'.single
  have hnone := h'.none
  rw [← hcomparison] at hlisted hsingle hnone
  cases hlist : plan.comparison.takesList with
  | true =>
    -- The names reach up to the first parenthesis, and a reader finds them in between.
    rw [hlist, if_pos rfl, if_pos rfl] at hsame
    simp only [String.toList_append, List.append_assoc] at hsame
    have hopen : ∀ {names : List String}, (∀ name ∈ names, IsName name) →
        ∀ c ∈ (",".intercalate names).toList, (c != ')') = true := by
      intro names hnames c hc
      rw [bne_iff_ne]
      rintro rfl
      rcases mem_intercalate hc with hc | ⟨name, hname, hc⟩
      · revert hc
        decide
      · obtain ⟨word, hword, hchars⟩ := hnames name hname
        rw [hword, List.mem_cons] at hc
        rcases hc with hc | hc
        · revert hc
          decide
        · exact absurd (hchars _ hc) (by decide)
    have hclose : ∀ rest : List Char, ∀ c ∈ (")".toList ++ rest).head?, (c != ')') = false := by
      intro rest c hc
      have hc : c = ')' := (Option.mem_some.mp hc).symm
      subst hc
      decide
    obtain ⟨hnames, hends⟩ := run_inj (hopen h.names) (hopen h'.names) (hclose rest) (hclose rest')
      (List.append_cancel_left hsame)
    refine ⟨?_, List.append_cancel_left hends⟩
    rw [← (shows_names h.names).scan_eq, hnames, (shows_names h'.names).scan_eq]
  | false =>
    rw [hlist, if_neg Bool.false_ne_true, if_neg Bool.false_ne_true] at hsame
    cases htakes : plan.comparison.takesValue with
    | true =>
      obtain ⟨name, hname⟩ := h.single hlist htakes
      obtain ⟨name', hname'⟩ := hsingle hlist htakes
      obtain ⟨word, hword, hchars⟩ := h.names name (hname ▸ List.mem_cons_self)
      obtain ⟨word', hword', hchars'⟩ := h'.names name' (hname' ▸ List.mem_cons_self)
      rw [hname, hname'] at hsame ⊢
      dsimp only at hsame
      rw [String.toList_append, String.toList_append, hword, hword', List.append_assoc,
        List.append_assoc] at hsame
      obtain ⟨hwords, hends⟩ := run_inj hchars hchars' hrest hrest'
        (List.cons.inj (List.append_cancel_left hsame)).2
      rw [← hwords, ← hword] at hword'
      exact ⟨by rw [String.toList_inj.mp hword'], hends⟩
    | false =>
      rw [h.none htakes, hnone htakes] at hsame ⊢
      exact ⟨rfl, hsame⟩

end Plan.Readable

/-- A plain column holds no blank and no parenthesis. -/
theorem isColumnChar_ne {c : Char} (h : isColumnChar c = true) : c ≠ ' ' ∧ c ≠ '(' := by
  constructor <;> rintro rfl <;> revert h <;> decide

/-- **Conditions are legible.** -/
theorem legible_condition : Legible Plan.Readable Plan.condition Plan.seen := by
  intro plan plan' h h' rest rest' hrest hrest' hsame
  unfold Plan.condition at hsame
  simp only [String.toList_append, List.append_assoc] at hsame
  have hcolumn : ∀ {plan : Plan}, plan.Readable →
      ∀ c ∈ plan.criterion.column.toList, (c != ' ') = true :=
    fun h c hc => bne_iff_ne.mpr (isColumnChar_ne (h.column c hc)).1
  have hblank : ∀ rest : List Char, ∀ c ∈ (" ".toList ++ rest).head?, (c != ' ') = false := by
    intro rest c hc
    have hc : c = ' ' := (Option.mem_some.mp hc).symm
    subst hc
    decide
  obtain ⟨hcolumns, hsame⟩ := run_inj (hcolumn h) (hcolumn h') (hblank _) (hblank _) hsame
  have hsame := List.append_cancel_left hsame
  -- Both openings begin the same text, so one of them begins the other.
  have hcomparison : plan.comparison = plan'.comparison := by
    have hprefix := h.opening_prefix rest
    rw [hsame] at hprefix
    rcases List.prefix_or_prefix_of_prefix hprefix (h'.opening_prefix rest') with hfirst | hsecond
    · exact Comparison.opening_inj hfirst
    · exact (Comparison.opening_inj hsecond).symm
  rw [hcomparison] at hsame
  obtain ⟨hnames, hends⟩ := h.placeholders_inj h' hcomparison hrest hrest'
    (List.append_cancel_left hsame)
  refine ⟨?_, hends⟩
  unfold Plan.seen
  rw [String.toList_inj.mp hcolumns, hcomparison, hnames]

/-- A condition does not begin with a parenthesis. -/
theorem Plan.Readable.head?_condition {plan : Plan} (h : plan.Readable) (rest : List Char) :
    (plan.condition.toList ++ rest).head? ≠ some '(' := by
  unfold condition
  simp only [String.toList_append, List.append_assoc]
  cases hcolumn : plan.criterion.column.toList with
  | nil => simp
  | cons c cs =>
    have hc := isColumnChar_ne (h.column c (hcolumn ▸ List.mem_cons_self))
    simpa using hc.2

/-! ## Rows -/

/-- Items behind each other, each behind a connective of its own. -/
def row {α : Type} (joint : α → Connective) (write : α → String) (items : List α) : String :=
  String.join (items.map fun item => " " ++ (joint item).sql ++ " " ++ write item)

/-- A row begins with a blank, the connective of its first item, and a blank again. -/
theorem toList_row_cons {α : Type} (joint : α → Connective) (write : α → String) (item : α)
    (items : List α) (rest : List Char) :
    (row joint write (item :: items)).toList ++ rest
      = ' ' :: ((joint item).sql.toList
          ++ ' ' :: ((write item).toList ++ ((row joint write items).toList ++ rest))) := by
  unfold row
  rw [List.map_cons, String.join_cons]
  simp only [String.toList_append, List.append_assoc]
  rfl

/-- Where a row ends there is a parenthesis, or nothing more. -/
def EndsRow (rest : List Char) : Prop := ∀ c ∈ rest.head?, c = ')'

/-- A name is not continued by what ends a row. -/
theorem EndsRow.fenced {rest : List Char} (h : EndsRow rest) : Fenced rest := by
  intro c hc
  rw [h c hc]
  decide

/-- What comes after an item of a row is behind a fence. -/
theorem EndsRow.fenced_row {α : Type} {rest : List Char} (h : EndsRow rest)
    (joint : α → Connective) (write : α → String) (items : List α) :
    Fenced ((row joint write items).toList ++ rest) := by
  cases items with
  | nil => exact h.fenced
  | cons item items =>
    rw [toList_row_cons]
    exact fenced_blank _

/-- What ends a row does not look like one more item. -/
theorem EndsRow.ne_blank {rest rest' : List Char} (h : EndsRow rest) : rest ≠ ' ' :: rest' := by
  rintro rfl
  exact absurd (h ' ' rfl) (by decide)

/-- **Rows of legible items** tell the connectives, the items and where they end. -/
theorem Legible.row {α β : Type} {valid : α → Prop} {write : α → String} {view : α → β}
    (h : Legible valid write view) (joint : α → Connective) :
    ∀ {items items' : List α}, (∀ item ∈ items, valid item) → (∀ item ∈ items', valid item) →
      ∀ {rest rest' : List Char}, EndsRow rest → EndsRow rest' →
        (row joint write items).toList ++ rest = (row joint write items').toList ++ rest' →
          (items.map fun item => (joint item, view item))
              = (items'.map fun item => (joint item, view item)) ∧
            rest = rest' := by
  intro items
  induction items with
  | nil =>
    intro items' _ _ rest rest' hrest _ hsame
    cases items' with
    | nil => exact ⟨rfl, hsame⟩
    | cons item' items' =>
      rw [toList_row_cons] at hsame
      exact absurd hsame hrest.ne_blank
  | cons item items ih =>
    intro items' hall hall' rest rest' hrest hrest' hsame
    cases items' with
    | nil =>
      rw [toList_row_cons] at hsame
      exact absurd hsame.symm hrest'.ne_blank
    | cons item' items' =>
      obtain ⟨hitem, hitems⟩ := List.forall_mem_cons.mp hall
      obtain ⟨hitem', hitems'⟩ := List.forall_mem_cons.mp hall'
      rw [toList_row_cons, toList_row_cons] at hsame
      obtain ⟨hjoint, hsame⟩ := Connective.blank_inj (List.cons.inj hsame).2
      obtain ⟨hview, hsame⟩ := h hitem hitem' (hrest.fenced_row _ _ _) (hrest'.fenced_row _ _ _)
        hsame
      obtain ⟨hothers, hends⟩ := ih hitems hitems' hrest hrest' hsame
      refine ⟨?_, hends⟩
      rw [List.map_cons, List.map_cons, hjoint, hview, hothers]

end BoundSql
