import BoundSql.Proofs.Rendering
import BoundSql.Proofs.Scanning

/-!
# Reading a clause back

A reader who knows nothing but the text of a clause finds in it the names of
its criteria, passage by passage and within each in the order of the list.

What a caller has written into the clause must not hold a colon of its own:
columns, and the texts around groups. These are the `Passage.texts`, of which
each is copied as it is.

> `Passage.shows_text`: a passage shows the names of its members.

A condition shows all its names because it has passed the checks: only a list
has more than one, and a list is only let through where the names are written
as a list.
-/

namespace BoundSql

open Placeholder

theorem Comparison.silent_sql (comparison : Comparison) : Silent comparison.sql := by
  cases comparison <;> decide

theorem Connective.silent_sql (connective : Connective) : Silent connective.sql := by
  cases connective <;> decide

/-! ## Conditions -/

/-- A criterion that passes the checks has a value that fits its comparison. -/
theorem Criterion.valueCause?_of_cause? {policy : Policy} {criterion : Criterion}
    (h : criterion.cause? policy = none)
    (htakes : (criterion.effectiveComparison policy).takesValue = true) :
    valueCause? (criterion.effectiveComparison policy) criterion.column criterion.value = none := by
  unfold cause? at h
  split at h
  · cases h
  · dsimp only at h
    split at h
    · cases h
    · cases h
    · rwa [if_pos htakes] at h

/-- Without a list of placeholders there is at most one value. -/
theorem Criterion.length_slots_le_one {policy : Policy} {criterion : Criterion} {position : Nat}
    (h : criterion.cause? policy = none)
    (hlist : (criterion.effectiveComparison policy).takesList = false) :
    (criterion.planned policy position).slots.length ≤ 1 := by
  show (criterion.slots (criterion.effectiveComparison policy) position).length ≤ 1
  unfold slots
  split
  · next htakes =>
    have hvalue := valueCause?_of_cause? h htakes
    split
    · exact Nat.zero_le 1
    -- A list under a comparison that takes none was refused by the checks.
    · next items hitems =>
      rw [hitems, valueCause?, hlist] at hvalue
      cases hvalue
    · exact Nat.le_refl 1
  · exact Nat.zero_le 1

/-- The placeholders of a condition show its names. -/
theorem Plan.trails_placeholders {plan : Plan} (hnames : ∀ name ∈ plan.names, IsName name)
    (hone : plan.comparison.takesList = false → plan.slots.length ≤ 1) :
    Trails plan.placeholders plan.names := by
  unfold placeholders
  split
  · have hopen : Separates " (" := by decide
    have htrails := hopen.trails_append ((shows_names hnames).close separates_close)
    rwa [← String.append_assoc] at htrails
  · next hlist =>
    have hone := hone (by rw [Bool.eq_false_iff]; exact hlist)
    unfold names at hnames ⊢
    split
    · next slot rest hslots =>
      -- Only the first slot is written here, so there must not be a second.
      have hrest : rest = [] := by
        rw [hslots, List.length_cons] at hone
        exact List.length_eq_zero_iff.mp (by omega)
      rw [hslots, hrest] at hnames ⊢
      exact separates_blank.trails_append (hnames slot.name List.mem_cons_self).shows
    · next hslots =>
      rw [hslots]
      exact trails_empty

/-- A condition of an accepted list shows the names of its slots. -/
theorem Plan.shows_condition {policy : Policy} {criteria : List Criterion} {plan : Plan}
    (h : Accepted policy criteria) (hplan : plan ∈ planned policy criteria)
    (hcolumn : Silent plan.criterion.column) : Shows plan.condition plan.names := by
  have hnames : ∀ name ∈ plan.names, IsName name := fun name hname =>
    (planned_names (List.mem_flatMap.mpr ⟨plan, hplan, hname⟩)).1
  obtain ⟨i, criterion, -, hcriterion, rfl⟩ := mem_plannedFrom hplan
  have htrails := trails_placeholders hnames fun hlist =>
    Criterion.length_slots_le_one (h.checks criterion hcriterion) hlist
  unfold condition
  refine Silent.append_shows ?_ htrails.shows
  exact (hcolumn.append separates_blank.1).append (Comparison.silent_sql _)

/-! ## Passages -/

/-- What a caller has written into a passage. -/
def Passage.texts (passage : Passage) : List String :=
  passage.lead.toList ++ passage.members.map (·.criterion.column) ++ passage.after?.toList

/-- A passage is what some block of the layout writes. -/
theorem Passage.exists_writes {plans : List Plan} (h : Positioned plans) {passage : Passage}
    (hpassage : passage ∈ outline plans) : ∃ block : Block, block.Writes passage := by
  obtain ⟨i, hi, rfl⟩ := List.mem_iff_getElem.mp hpassage
  have hblocks := (Layout.follows_ofPlans h).blocks
  exact ⟨_, (List.forall₂_iff_get.mp hblocks).2 i (hblocks.length_eq ▸ hi) hi⟩

/-- A passage is a condition or a group that begins with its opener. -/
theorem Passage.core_cases {plans : List Plan} (h : Positioned plans) {passage : Passage}
    (hpassage : passage ∈ outline plans) :
    passage.core = passage.opener.condition ∧ passage.members = [passage.opener] ∨
      ∃ others, passage.core = "(" ++ conjunction (passage.opener :: others) ++ ")" ∧
        passage.members = passage.opener :: others := by
  obtain ⟨block, hwrites⟩ := exists_writes h hpassage
  cases hwrites with
  | @plain opener lead hplain =>
    left
    refine ⟨?_, rfl⟩
    unfold core
    rw [hplain]
  | @group opener key lead others hlabel =>
    right
    refine ⟨others, ?_, rfl⟩
    obtain ⟨grouping, hgrouping, -⟩ := Plan.label_eq_group_iff.mp hlabel
    unfold core
    rw [hgrouping]

/-- The conditions of a group show their names in turn. -/
theorem Passage.shows_conjunction {first : Plan} {others : List Plan}
    (h : ∀ plan ∈ first :: others, Shows plan.condition plan.names) :
    Shows (conjunction (first :: others)) ((first :: others).flatMap Plan.names) := by
  obtain ⟨hfirst, hothers⟩ := List.forall_mem_cons.mp h
  refine hfirst.append (trails_join _ _ others fun plan hplan => ?_)
  have hconnective := (Connective.silent_sql plan.connective).append separates_blank.1
  have htrails := separates_blank.trails_append (hconnective.append_shows (hothers plan hplan))
  rwa [← String.append_assoc, ← String.append_assoc] at htrails

/-- A passage shows the names of its members. -/
theorem Passage.shows_text {policy : Policy} {criteria : List Criterion} {passage : Passage}
    (h : Accepted policy criteria) (hpassage : passage ∈ outline (planned policy criteria))
    (htexts : ∀ text ∈ passage.texts, Silent text) :
    Shows passage.text (passage.members.flatMap Plan.names) := by
  have hp := positioned_planned policy criteria
  have hconditions : ∀ plan ∈ passage.members, Shows plan.condition plan.names := by
    intro plan hplan
    refine Plan.shows_condition h (mem_of_mem_members hp hpassage hplan) (htexts _ ?_)
    exact List.mem_append_left _ (List.mem_append_right _ (List.mem_map.mpr ⟨plan, hplan, rfl⟩))
  have hcore : Shows passage.core (passage.members.flatMap Plan.names) := by
    rcases core_cases hp hpassage with ⟨hcore, hmembers⟩ | ⟨others, hcore, hmembers⟩
    · rw [hmembers] at hconditions ⊢
      rw [hcore, List.flatMap_singleton]
      exact hconditions _ List.mem_cons_self
    · rw [hmembers] at hconditions ⊢
      rw [hcore]
      exact (silent_open.append_shows (shows_conjunction hconditions)).close separates_close
  have hlead : Silent (Block.leadText passage.lead) := by
    cases hlead : passage.lead with
    | none => exact List.not_mem_nil
    | some lead =>
      have htext : Silent lead := htexts lead (by simp [texts, hlead])
      exact htext.append separates_blank.1
  have hafter : Trails (Block.afterText passage.after?) [] := by
    cases hafter : passage.after? with
    | none => exact trails_empty
    | some after =>
      have htext : Silent after := htexts after (by simp [texts, hafter])
      exact separates_blank.trails_append htext.shows
  have hshows := (hlead.append_shows hcore).append hafter
  rwa [List.append_nil] at hshows

/-! ## Clauses -/

/-- What a caller has written into a clause. -/
def clauseTexts (policy : Policy) (criteria : List Criterion) : List String :=
  (outline (planned policy criteria)).flatMap Passage.texts

/-- The slots of a criteria list in the order in which a reader finds their names. -/
def clauseSlots (policy : Policy) (criteria : List Criterion) : List Binding :=
  (outline (planned policy criteria)).flatMap fun passage => passage.members.flatMap Plan.slots

/-- A clause shows the names of its slots. -/
theorem Where.trails_sql {policy : Policy} {criteria : List Criterion} {clause : Where}
    (h : compile policy criteria = .ok clause)
    (htexts : ∀ text ∈ clauseTexts policy criteria, Silent text) :
    Trails clause.sql ((clauseSlots policy criteria).map Binding.name) := by
  by_cases hne : criteria = []
  · subst hne
    rw [compile_nil] at h
    cases h
    exact trails_empty
  · obtain ⟨haccepted, rfl⟩ := (compile_eq_ok_iff hne).mp h
    have hwhere : Separates " WHERE " := by decide
    have hpassages := shows_intercalate separates_blank Passage.text
      (fun passage => passage.members.flatMap Plan.names) (outline (planned policy criteria))
      fun passage hpassage => Passage.shows_text haccepted hpassage fun text htext =>
        htexts text (List.mem_flatMap.mpr ⟨passage, hpassage, htext⟩)
    have hnames : (clauseSlots policy criteria).map Binding.name
        = (outline (planned policy criteria)).flatMap fun passage =>
            passage.members.flatMap Plan.names := by
      unfold clauseSlots
      rw [List.map_flatMap]
      congr 1
      funext passage
      rw [List.map_flatMap]
      rfl
    have hsql : (ofPlans (planned policy criteria)).sql = outlineClause (planned policy criteria) :=
      Layout.clause_ofPlans hne
    rw [hsql, hnames]
    exact hwhere.trails_append hpassages

/-- A reader finds every slot of the list once. -/
theorem perm_clauseSlots (policy : Policy) (criteria : List Criterion) :
    (clauseSlots policy criteria).Perm ((planned policy criteria).flatMap Plan.slots) := by
  unfold clauseSlots
  rw [← List.flatMap_assoc]
  exact (perm_passages (positioned_planned policy criteria)).flatMap_right _

end BoundSql
