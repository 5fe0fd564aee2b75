import BoundSql.Proofs.FirstFault
import BoundSql.Proofs.GroupKeys

/-!
# Longer criteria lists

A list is compiled from the left, so criteria that are added behind it come too
late for most of what it says. They cannot mend a fault, because the first one
decides. They cannot touch what is bound, because positions count from the left.
What they can change is the text, but only where they join a group of the list:
if they bring groups of their own, each of them is a passage behind all others or
is added to one of those (`outline_append_of_apart`), and what leads into a
passage depends on the one before.

> `Where.compile_extended`: of a longer list the bindings go on where those of the
> list end, and so does the text unless a group of the list goes on as well. What
> is wrong with the list is wrong with the longer one.
-/

namespace BoundSql

/-! ## Faults -/

/-- A fault of a list is one of every longer list. -/
theorem planAll_append_of_error {policy : Policy} {criteria : List Criterion} {fault : Fault}
    (h : planAll policy criteria = .error fault) (more : List Criterion) :
    planAll policy (criteria ++ more) = .error fault := by
  have hfaulty : ¬ Faultless policy criteria := by
    intro hfaultless
    rw [planAll_eq_ok_iff.mpr ⟨faultless_iff_accepted.mp hfaultless, rfl⟩] at h
    cases h
  obtain ⟨front, criterion, back, rfl, hfront, hatFault⟩ := exists_first_fault hfaulty
  obtain ⟨first, hfirst, -⟩ := existsUnique_faultOf hatFault
  rw [planAll_of_faultOf hfront hfirst] at h
  rw [List.append_assoc, List.cons_append, planAll_of_faultOf hfront hfirst]
  exact h

/-! ## Bindings -/

/-- The plans of what comes first do not depend on what comes after it. -/
theorem planned_append (policy : Policy) (criteria more : List Criterion) :
    planned policy (criteria ++ more)
      = planned policy criteria ++ plannedFrom policy (1 + criteria.length) more :=
  plannedFrom_append policy criteria more 1

/-- What comes first is accepted if the whole is. -/
theorem Accepted.of_append {policy : Policy} {criteria more : List Criterion}
    (h : Accepted policy (criteria ++ more)) : Accepted policy criteria := by
  refine ⟨fun criterion hcriterion => h.checks criterion (List.mem_append_left more hcriterion), ?_⟩
  have hnodup := h.nodup
  rw [planned_append, List.flatMap_append] at hnodup
  exact (List.nodup_append.mp hnodup).1

/-! ## Texts -/

/-- Plans have no label in common with others. -/
def Apart (plans more : List Plan) : Prop :=
  ∀ plan ∈ plans, ∀ other ∈ more, plan.label ≠ other.label

/-- **The outline goes on** behind that of the first plans if no later one has a label of
theirs. -/
theorem outline_append_of_apart {plans more : List Plan} (h : Positioned (plans ++ more))
    (hapart : Apart plans more) : outline plans <+: outline (plans ++ more) := by
  induction more using List.reverseRecOn with
  | nil => exact ⟨[], by rw [List.append_nil, List.append_nil]⟩
  | append_singleton more last ih =>
    rw [← List.append_assoc] at h ⊢
    have hlast : ∀ plan ∈ plans, plan.label ≠ last.label := fun plan hplan =>
      hapart plan hplan last (by simp)
    obtain ⟨others, hothers⟩ := ih h.of_concat.1 fun plan hplan other hother =>
      hapart plan hplan other (List.mem_append_left _ hother)
    by_cases hnew : ∀ other ∈ plans ++ more, other.label ≠ last.label
    · rw [outline_concat_of_new h hnew, ← hothers, List.append_assoc]
      exact List.prefix_append _ _
    · push Not at hnew
      -- The passage that the last one joins has none of the first plans.
      have hkept : (outline plans).map (Passage.extend last) = outline plans := by
        have hextend : ∀ passage ∈ outline plans, passage.extend last = passage :=
          fun passage hpassage => Passage.extend_of_ne (hlast _ (opener_mem hpassage)).symm
        rw [List.map_congr_left hextend, List.map_id']
      rw [outline_concat_of_old h hnew, ← hothers, List.map_append, hkept]
      exact List.prefix_append _ _

/-- Texts that are joined begin with the first of them joined. -/
theorem intercalate_append_prefix {separator : String} {texts : List String} (hne : texts ≠ [])
    (more : List String) :
    ∃ rest, separator.intercalate (texts ++ more) = separator.intercalate texts ++ rest := by
  by_cases hmore : more = []
  · exact ⟨"", by rw [hmore, List.append_nil, String.append_empty]⟩
  · exact ⟨separator ++ separator.intercalate more, by
      rw [String.intercalate_append_of_ne_nil hne hmore, String.append_assoc]⟩

/-- Criteria are apart from those behind them if no group goes on. -/
theorem apart_plannedFrom {policy : Policy} {criteria more : List Criterion}
    (hkeys : ∀ key ∈ groupKeys more, key ∉ groupKeys criteria) :
    Apart (planned policy criteria) (plannedFrom policy (1 + criteria.length) more) := by
  intro plan hplan other hother hlabel
  have hle : plan.position ≤ (planned policy criteria).length :=
    (positioned_planned policy criteria).position_le hplan
  rw [planned, length_plannedFrom] at hle
  obtain ⟨position, criterion, hposition, hcriterion, rfl⟩ := mem_plannedFrom hother
  cases hother : (criterion.planned policy position).label with
  | plain later =>
    have hposition' : position = later := Plan.position_of_label hother
    have hsame : plan.position = later := Plan.position_of_label (hlabel.trans hother)
    omega
  | group key =>
    have hkey := Plan.key?_eq_some_iff.mpr hother
    have hkey' := Plan.key?_eq_some_iff.mpr (hlabel.trans hother)
    refine hkeys key (List.mem_filterMap.mpr ⟨criterion, hcriterion, hkey⟩) ?_
    exact keyIn_planned policy criteria plan hplan key hkey'

/-- A clause begins with that of its first criteria, if no group goes on behind these. -/
theorem outlineClause_append (policy : Policy) {criteria more : List Criterion}
    (hne : criteria ≠ []) (hkeys : ∀ key ∈ groupKeys more, key ∉ groupKeys criteria) :
    ∃ rest, outlineClause (planned policy (criteria ++ more))
      = outlineClause (planned policy criteria) ++ rest := by
  have hpositioned := positioned_planned policy (criteria ++ more)
  rw [planned_append] at hpositioned
  obtain ⟨passages, hpassages⟩ := outline_append_of_apart hpositioned (apart_plannedFrom hkeys)
  have htexts : (outline (planned policy criteria)).map Passage.text ≠ [] :=
    mt List.map_eq_nil_iff.mp (outline_planned_ne_nil hne)
  obtain ⟨rest, hrest⟩ := intercalate_append_prefix htexts (passages.map Passage.text)
  refine ⟨rest, ?_⟩
  rw [outlineClause, outlineClause, planned_append, ← hpassages, List.map_append, hrest,
    String.append_assoc]

/-! ## Compiling -/

namespace Where

/-- **A longer list** is compiled to no other clause than the list says. If it is compiled, so is
the list, and what is bound for the list comes first. The text of the list comes first as well
if the list is not empty and no criterion behind it is in one of its groups, whatever stands
around the groups of either. And if the list is refused, the longer one is refused for the same
fault. -/
theorem compile_extended (policy : Policy) (criteria more : List Criterion) :
    (∀ clause, compile policy (criteria ++ more) = .ok clause →
        ∃ front, compile policy criteria = .ok front ∧ front.bindings <+: clause.bindings ∧
          (criteria ≠ [] → (∀ key ∈ groupKeys more, key ∉ groupKeys criteria) →
            ∃ rest, clause.sql = front.sql ++ rest)) ∧
      ∀ fault, compile policy criteria = .error fault →
        compile policy (criteria ++ more) = .error fault := by
  by_cases hne : criteria = []
  · subst hne
    refine ⟨fun clause _ => ⟨empty, compile_nil policy, List.nil_prefix, fun h => ?_⟩, ?_⟩
    · exact absurd rfl h
    · intro fault h
      cases h
  · have hmore : criteria ++ more ≠ [] := List.append_ne_nil_of_left_ne_nil hne more
    constructor
    · intro clause hclause
      obtain ⟨haccepted, rfl⟩ := (compile_eq_ok_iff hmore).mp hclause
      refine ⟨_, (compile_eq_ok_iff hne).mpr ⟨haccepted.of_append, rfl⟩, ?_, fun _ hkeys => ?_⟩
      · show (planned policy criteria).flatMap Plan.slots
          <+: (planned policy (criteria ++ more)).flatMap Plan.slots
        rw [planned_append, List.flatMap_append]
        exact List.prefix_append _ _
      · obtain ⟨rest, hrest⟩ := outlineClause_append policy hne hkeys
        rw [ofPlans, ofPlans, Layout.clause_ofPlans hne, Layout.clause_ofPlans hmore]
        exact ⟨rest, hrest⟩
    · intro fault hfault
      rw [compile_eq_map hne] at hfault
      rw [compile_eq_map hmore]
      cases hplans : planAll policy criteria with
      | ok plans =>
        rw [hplans] at hfault
        cases hfault
      | error first =>
        rw [hplans] at hfault
        cases hfault
        rw [planAll_append_of_error hplans]
        rfl

/-- Behind a group with a text after it, and behind two criteria with one name. -/
theorem compile_extended_interleaved :
    (∃ front clause, compile {} (interleaved.take 1) = .ok front ∧
      compile {} (interleaved.take 3) = .ok clause ∧ front.bindings <+: clause.bindings ∧
      front.sql = " WHERE (a = :a1) OR" ∧
      clause.sql = " WHERE (a = :a1) OR b = :b2 AND NOT (c IN (:c30,:c31))" ∧
      ∃ rest, clause.sql = front.sql ++ rest) ∧
    compile {} (Builder.spelledAlike ++ interleaved)
      = .error ((Fault.of (.placeholderCollision ":a12")).atPosition 2) := by
  obtain ⟨hextended, -⟩ := compile_extended {} (interleaved.take 1) ((interleaved.take 3).drop 1)
  obtain ⟨-, hrefused⟩ := compile_extended {} Builder.spelledAlike interleaved
  refine ⟨?_, hrefused _ rfl⟩
  obtain ⟨clause, hclause, hsql⟩ : ∃ clause, compile {} (interleaved.take 3) = .ok clause ∧
      clause.sql = " WHERE (a = :a1) OR b = :b2 AND NOT (c IN (:c30,:c31))" := ⟨_, rfl, rfl⟩
  obtain ⟨front, hfront, hbindings, htext⟩ := hextended clause hclause
  have hfrontSql : front.sql = " WHERE (a = :a1) OR" := by
    cases hfront
    rfl
  exact ⟨front, clause, hfront, hclause, hbindings, hfrontSql, hsql,
    htext (by simp [interleaved]) (by decide)⟩

end Where

end BoundSql
