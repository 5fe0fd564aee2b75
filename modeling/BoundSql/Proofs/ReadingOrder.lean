import BoundSql.Proofs.ClauseReading
import BoundSql.Proofs.Statements

/-!
# The order in which placeholders are read

The bindings of a clause stand in the order of the criteria, its placeholders
in the order of the passages. A group that is taken up again later draws its
later criteria forward, so a reader may find the names in another order than
they are bound. He finds the same names, each once. And where every group is
written in one go the passages just cut the list into pieces:

> `flatMap_members_of_together`: where the criteria of each group stand together,
> the passages one after the other are the list.

What is read here is every colon that a word follows, with the longest run of
word characters after it. The texts that callers write into a clause are taken
to hold no colon.
-/

namespace BoundSql

open Placeholder

/-! ## What callers write -/

/-- The texts that a criterion brings into a clause as they are. -/
def Criterion.texts (criterion : Criterion) : List String :=
  criterion.column :: match criterion.grouping with
    | some grouping => grouping.before.toList ++ grouping.after.toList
    | none => []

/-- Trimming takes characters away and adds none. -/
theorem Text.mem_of_mem_trim {text : String} {c : Char} (h : c ∈ (Text.trim text).toList) :
    c ∈ text.toList := by
  rw [Text.trim, String.toList_ofList, Text.dropBlankEnd, List.mem_reverse] at h
  have hend := List.mem_reverse.mp ((List.dropWhile_suffix Text.isBlank).mem h)
  exact (List.dropWhile_suffix Text.isBlank).mem hend

/-- What is left of a silent text after trimming is silent. -/
theorem Text.silent_of_nonBlank? {text : Option String} {trimmed : String}
    (h : Text.nonBlank? text = some trimmed) (hsilent : ∀ s ∈ text, Silent s) :
    Silent trimmed := by
  obtain ⟨hmap, -⟩ := Option.filter_eq_some_iff.mp h
  obtain ⟨s, hs, rfl⟩ := Option.map_eq_some_iff.mp hmap
  exact fun hc => hsilent s hs (Text.mem_of_mem_trim hc)

/-- The texts before and after a group are silent if all texts of its criteria are. -/
theorem Plan.silent_around {plan : Plan} (h : ∀ text ∈ plan.criterion.texts, Silent text) :
    (∀ before ∈ plan.before?, Silent before) ∧ ∀ after ∈ plan.after?, Silent after := by
  unfold Criterion.texts at h
  unfold before? after?
  cases hgrouping : plan.criterion.grouping with
  | none => exact ⟨nofun, nofun⟩
  | some grouping =>
    rw [hgrouping] at h
    constructor
    · intro before hbefore
      exact Text.silent_of_nonBlank? hbefore fun s hs => h s (by simp [Option.mem_def.mp hs])
    · intro after hafter
      exact Text.silent_of_nonBlank? hafter fun s hs => h s (by simp [Option.mem_def.mp hs])

/-- What leads into a passage is the text before its group or a connective. -/
theorem silent_leadInto {previous : Option Plan} {opener : Plan}
    (h : ∀ before ∈ opener.before?, Silent before) :
    ∀ lead ∈ leadInto previous opener, Silent lead := by
  intro lead hlead
  unfold leadInto at hlead
  split at hlead
  · cases hlead
  · split at hlead
    · next before hbefore =>
      rw [Option.mem_some] at hlead
      exact hlead ▸ h before hbefore
    · cases hlead
    · rw [Option.mem_some] at hlead
      exact hlead ▸ Connective.silent_sql opener.connective

/-- The texts of a clause are silent if those of the criteria are. -/
theorem silent_clauseTexts {policy : Policy} {criteria : List Criterion}
    (h : ∀ criterion ∈ criteria, ∀ text ∈ criterion.texts, Silent text) :
    ∀ text ∈ clauseTexts policy criteria, Silent text := by
  have hp := positioned_planned policy criteria
  have hplans : ∀ plan ∈ planned policy criteria, ∀ text ∈ plan.criterion.texts, Silent text := by
    intro plan hplan
    obtain ⟨i, criterion, -, hcriterion, rfl⟩ := mem_plannedFrom hplan
    exact h criterion hcriterion
  intro text htext
  obtain ⟨passage, hpassage, htext⟩ := List.mem_flatMap.mp htext
  obtain ⟨hbefore, hafter⟩ := Plan.silent_around (hplans _ (opener_mem hpassage))
  unfold Passage.texts at htext
  rcases List.mem_append.mp htext with htext | htext
  · rcases List.mem_append.mp htext with htext | htext
    · obtain ⟨front, back, hsplit⟩ := List.append_of_mem hpassage
      have hlead := (isOutline_outline hp).leads front passage back hsplit
      rw [Option.mem_toList, hlead] at htext
      exact silent_leadInto hbefore text htext
    · obtain ⟨plan, hplan, rfl⟩ := List.mem_map.mp htext
      exact hplans plan (mem_of_mem_members hp hpassage hplan) _ List.mem_cons_self
  · exact hafter text (Option.mem_toList.mp htext)

/-! ## Groups that are written in one go -/

/-- Whatever stands between two entries with one key has that key as well. -/
def Together {α κ : Type} (key? : α → Option κ) (entries : List α) : Prop :=
  ∀ front first middle last back, entries = front ++ first :: (middle ++ last :: back) →
    ∀ key, key? first = some key → key? last = some key → ∀ entry ∈ middle, key? entry = some key

/-- Entries at the front of those that stand together do so too. -/
theorem Together.of_append {α κ : Type} {key? : α → Option κ} {entries more : List α}
    (h : Together key? (entries ++ more)) : Together key? entries := by
  intro front first middle last back hsplit
  refine h front first middle last (back ++ more) ?_
  rw [hsplit]
  simp only [List.append_assoc, List.cons_append]

/-- Keys that are looked up in what an entry stands for. -/
theorem Together.of_map {α β κ : Type} {key? : β → Option κ} {make : α → β} {entries : List α}
    (h : Together key? (entries.map make)) : Together (key? ∘ make) entries := by
  intro front first middle last back hsplit key hfirst hlast entry hentry
  refine h (front.map make) (make first) (middle.map make) (make last) (back.map make) ?_ key hfirst
    hlast (make entry) (List.mem_map.mpr ⟨entry, hentry, rfl⟩)
  rw [hsplit]
  simp only [List.map_append, List.map_cons]

theorem map_criterion_plannedFrom (policy : Policy) :
    ∀ (criteria : List Criterion) (position : Nat),
      (plannedFrom policy position criteria).map Plan.criterion = criteria
  | [], _ => rfl
  | criterion :: rest, position =>
    congrArg (criterion :: ·) (map_criterion_plannedFrom policy rest (position + 1))

/-- A criterion whose label is there already belongs to a group. -/
theorem exists_key_of_old {plans : List Plan} {other last : Plan}
    (h : Positioned (plans ++ [last])) (hother : other ∈ plans)
    (hlabel : other.label = last.label) :
    ∃ key, last.label = .group key := by
  obtain ⟨hplans, hposition⟩ := h.of_concat
  have hle := hplans.position_le hother
  cases hlast : last.label with
  | group key => exact ⟨key, rfl⟩
  | plain position =>
    -- A plain condition is labelled with its position, and the last one has its own.
    exfalso
    rw [hlast] at hlabel
    unfold Plan.label at hlabel hlast
    split at hlast
    · split at hlabel
      · rw [Label.plain.injEq] at hlabel hlast
        omega
      · cases hlabel
    · cases hlast

/-- A label that is there already is that of the criterion right before, if the criteria of
each group stand together. -/
theorem label_getLast?_of_old {plans : List Plan} {last : Plan} (h : Positioned (plans ++ [last]))
    (htogether : Together (Criterion.key? ∘ Plan.criterion) (plans ++ [last]))
    (hold : ∃ other ∈ plans, other.label = last.label) :
    plans.getLast?.map Plan.label = some last.label := by
  obtain ⟨other, hother, hlabel⟩ := hold
  obtain ⟨key, hkey⟩ := exists_key_of_old h hother hlabel
  obtain ⟨front, middle, rfl⟩ := List.append_of_mem hother
  rcases List.eq_nil_or_concat middle with rfl | ⟨middle, previous, rfl⟩
  · rw [List.getLast?_concat, Option.map_some, hlabel]
  · have hprevious := htogether front other (middle ++ [previous]) last [] (by simp) key
      (Plan.key?_eq_some_iff.mpr (hlabel.trans hkey)) (Plan.key?_eq_some_iff.mpr hkey) previous
      (by simp)
    rw [List.concat_eq_append, ← List.cons_append, ← List.append_assoc, List.getLast?_concat,
      Option.map_some, hkey, Plan.key?_eq_some_iff.mp hprevious]

/-- A criterion with the label of the last passage is added there and nowhere else. -/
theorem flatMap_members_map_extend {passages : List Passage} {last : Plan}
    (hnodup : (passages.map (·.opener.label)).Nodup)
    (hlast : passages.getLast?.map (·.opener.label) = some last.label) :
    (passages.map (Passage.extend last)).flatMap Passage.members
      = passages.flatMap Passage.members ++ [last] := by
  obtain ⟨passage, hpassage, hlabel⟩ := Option.map_eq_some_iff.mp hlast
  obtain ⟨front, rfl⟩ := List.getLast?_eq_some_iff.mp hpassage
  have hfront : front.map (Passage.extend last) = front := by
    rw [List.map_congr_left (g := id), List.map_id]
    intro other hother
    refine Passage.extend_of_ne fun hsame => ?_
    rw [List.map_append, List.nodup_append] at hnodup
    exact hnodup.2.2 _ (List.mem_map.mpr ⟨other, hother, rfl⟩) _ List.mem_cons_self
      (hsame.symm.trans hlabel.symm)
  have hmembers : (passage.extend last).members = passage.members ++ [last] := by
    rw [Passage.extend, if_pos hlabel.symm]
  rw [List.map_append, hfront, List.map_singleton, List.flatMap_append, List.flatMap_append,
    List.flatMap_singleton, List.flatMap_singleton, hmembers, List.append_assoc]

/-- **Groups written in one go** leave the criteria in their order: the passages one after
the other are the list. The last of them is that of the last criterion. -/
theorem flatMap_members_of_together {plans : List Plan} (h : Positioned plans)
    (htogether : Together (Criterion.key? ∘ Plan.criterion) plans) :
    (outline plans).flatMap Passage.members = plans ∧
      (outline plans).getLast?.map (·.opener.label) = plans.getLast?.map Plan.label := by
  induction plans using List.reverseRecOn with
  | nil => exact ⟨rfl, rfl⟩
  | append_singleton plans last ih =>
    have hplans := h.of_concat.1
    obtain ⟨hmembers, hlabel⟩ := ih hplans htogether.of_append
    rw [List.getLast?_concat]
    by_cases hnew : ∀ other ∈ plans, other.label ≠ last.label
    · rw [outline_concat_of_new h hnew, List.flatMap_append, hmembers, List.getLast?_concat]
      exact ⟨rfl, rfl⟩
    · push Not at hnew
      have hlast := label_getLast?_of_old h htogether hnew
      rw [← hlabel] at hlast
      have hnodup := nodup_labels hplans
      rw [← map_label_outline] at hnodup
      rw [outline_concat_of_old h hnew, flatMap_members_map_extend hnodup hlast, hmembers,
        List.getLast?_map, Option.map_map]
      exact ⟨rfl, hlast⟩

/-! ## Reading and binding -/

/-- Every colon of a text with at least one word character after it, together with the
longest run of these. -/
def Placeholder.tokens (text : String) : List String :=
  (scan text.toList).filter (· ≠ ":")

/-- A name that ends in a digit is more than a colon. -/
theorem Placeholder.EndsInDigit.ne_colon {name : String} (h : EndsInDigit name) : name ≠ ":" := by
  rintro rfl
  obtain ⟨c, hlast, hdigit⟩ := h
  cases hlast
  cases hdigit

/-- The names of a clause are read as they are shown. -/
theorem Where.tokens_eq {policy : Policy} {criteria : List Criterion} {clause : Where}
    (h : compile policy criteria = .ok clause)
    (htexts : ∀ criterion ∈ criteria, ∀ text ∈ criterion.texts, Silent text) :
    tokens clause.sql = (clauseSlots policy criteria).map Binding.name := by
  unfold tokens
  rw [(trails_sql h (silent_clauseTexts htexts)).shows.scan_eq, List.filter_eq_self]
  intro name hname
  have hmem := ((perm_clauseSlots policy criteria).map Binding.name).mem_iff.mp hname
  rw [List.map_flatMap] at hmem
  exact decide_eq_true (planned_names hmem).2.ne_colon

/-- **Placeholders are the names of the bindings**, each read once, in some order. In the
same order where the criteria of each group stand together. -/
theorem Where.tokens_reorder_names {policy : Policy} {criteria : List Criterion} {clause : Where}
    (h : compile policy criteria = .ok clause)
    (htexts : ∀ criterion ∈ criteria, ∀ text ∈ criterion.texts, Silent text) :
    (tokens clause.sql).Perm clause.names ∧ (tokens clause.sql).Nodup ∧
      (Together Criterion.key? criteria → tokens clause.sql = clause.names) := by
  obtain ⟨haccepted, hbindings⟩ := accepted_of_compile h
  have hperm : (tokens clause.sql).Perm clause.names := by
    rw [tokens_eq h htexts, names, hbindings]
    exact (perm_clauseSlots policy criteria).map Binding.name
  refine ⟨hperm, ?_, fun htogether => ?_⟩
  · rw [hperm.nodup_iff, names_of_compile h]
    exact haccepted.nodup
  · have hplans : Together (Criterion.key? ∘ Plan.criterion) (planned policy criteria) := by
      refine Together.of_map ?_
      rw [planned, map_criterion_plannedFrom]
      exact htogether
    obtain ⟨hmembers, -⟩ :=
      flatMap_members_of_together (positioned_planned policy criteria) hplans
    rw [tokens_eq h htexts, names, hbindings, clauseSlots, ← List.flatMap_assoc, hmembers]

/-- Three conditions, of which those on the columns in `grouped` are in one group. -/
def threefold (grouped : List String) : List Criterion :=
  ["a", "b", "c"].map fun column =>
    { Criterion.isIn column [.int 1, .int 2] with
      grouping := if column ∈ grouped then some { key := "g" } else none }

/-- A group that is taken up again is read before what interrupts it, one that is written in
one go where it is bound. -/
theorem Where.tokens_reorder_names_threefold :
    (∃ clause, compile {} (threefold ["a", "c"]) = .ok clause ∧
        (tokens clause.sql).Perm clause.names ∧
        tokens clause.sql = [":a10", ":a11", ":c30", ":c31", ":b20", ":b21"]) ∧
      ∃ clause, compile {} (threefold ["a", "b", "c"]) = .ok clause ∧
        tokens clause.sql = clause.names := by
  have hsilent : ∀ grouped ∈ [["a", "c"], ["a", "b", "c"]],
      ∀ criterion ∈ threefold grouped, ∀ text ∈ criterion.texts, Silent text := by
    decide +kernel
  have htogether : Together Criterion.key? (threefold ["a", "b", "c"]) := by
    intro front first middle last back hsplit key hfirst hlast entry hentry
    have hkeys : ∀ criterion ∈ threefold ["a", "b", "c"], criterion.key? = some "g" := by
      decide +kernel
    have hmem : ∀ criterion ∈ first :: (middle ++ last :: back), criterion.key? = some "g" :=
      fun criterion hcriterion => hkeys criterion (hsplit ▸ List.mem_append_right _ hcriterion)
    rw [hmem entry (by simp [hentry]), ← hfirst, hmem first List.mem_cons_self]
  obtain ⟨resumed, hresumed⟩ : ∃ clause, compile {} (threefold ["a", "c"]) = .ok clause := ⟨_, rfl⟩
  obtain ⟨joined, hjoined⟩ : ∃ clause, compile {} (threefold ["a", "b", "c"]) = .ok clause :=
    ⟨_, rfl⟩
  obtain ⟨hperm, -, -⟩ := tokens_reorder_names hresumed (hsilent _ (by simp))
  obtain ⟨-, -, hsame⟩ := tokens_reorder_names hjoined (hsilent _ (by simp))
  refine ⟨⟨resumed, hresumed, hperm, ?_⟩, joined, hjoined, hsame htogether⟩
  cases hresumed
  rfl

end BoundSql
