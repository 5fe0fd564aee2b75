import BoundSql.Proofs.Naming
import BoundSql.Proofs.Outline

/-!
# The text of a WHERE clause is that of its outline

`Layout.place` looks at one criterion at a time and may change a block that it
laid out long ago. `Follows` is the invariant that ties the layout to the
outline of the criteria so far: block by block they are the same, and the
layout remembers whether the last of them brought a text after it. One more
criterion keeps it (`Follows.place`), so the finished layout follows the
outline of the whole list.

Trimming changes nothing: a condition ends in a placeholder, a parenthesis or
an operator, and a text after a group was trimmed before. Together:

> `Layout.clause_ofPlans`: the clause is the texts of the passages of the outline,
> joined by single blanks.
-/

namespace BoundSql

namespace Text

/-- The last character is there and is no blank. -/
def EndsVisibly (text : String) : Prop :=
  ∃ c, text.toList.getLast? = some c ∧ isBlank c = false

theorem EndsVisibly.append {text : String} (h : EndsVisibly text) (before : String) :
    EndsVisibly (before ++ text) := by
  obtain ⟨c, hlast, hc⟩ := h
  refine ⟨c, ?_, hc⟩
  rw [String.toList_append, List.getLast?_append, hlast]
  rfl

/-- Nothing is trimmed from a text that ends visibly. -/
theorem EndsVisibly.trimEnd_eq {text : String} (h : EndsVisibly text) : trimEnd text = text := by
  obtain ⟨c, hlast, hc⟩ := h
  refine trimEnd_eq_self fun d hd => ?_
  rw [hlast] at hd
  cases hd
  exact hc

/-- Texts that end visibly can be joined. -/
theorem EndsVisibly.intercalate {separator : String} :
    ∀ {texts : List String}, texts ≠ [] → (∀ text ∈ texts, EndsVisibly text) →
      EndsVisibly (separator.intercalate texts) := by
  intro texts
  induction texts with
  | nil => intro hne; exact absurd rfl hne
  | cons text rest ih =>
    intro _ hall
    cases rest with
    | nil =>
      rw [String.intercalate_singleton]
      exact hall text List.mem_cons_self
    | cons next rest =>
      rw [String.intercalate_cons_cons]
      refine (ih (List.cons_ne_nil _ _) fun other hother => ?_).append _
      exact hall other (List.mem_cons_of_mem _ hother)

theorem isBlank_of_isDigit {c : Char} (h : c.isDigit = true) : isBlank c = false := by
  have hrange : 48 ≤ c.toNat ∧ c.toNat ≤ 57 := by
    simpa [Char.isDigit, UInt32.le_iff_toNat_le] using h
  simp only [isBlank, Bool.or_eq_false_iff, Bool.and_eq_false_iff, decide_eq_false_iff_not,
    beq_eq_false_iff_ne, ne_eq]
  omega

/-- Trimming leaves nothing or a text that ends visibly. -/
theorem dropBlankEnd_getLast? {cs : List Char} {c : Char}
    (h : (dropBlankEnd cs).getLast? = some c) : isBlank c = false := by
  rw [dropBlankEnd, List.getLast?_reverse] at h
  have hhead := List.head?_dropWhile_not isBlank cs.reverse
  rw [h] at hhead
  simpa using hhead

theorem endsVisibly_close : EndsVisibly ")" := ⟨')', rfl, rfl⟩

/-- A text that is left after trimming ends visibly. -/
theorem endsVisibly_of_nonBlank? {text : Option String} {trimmed : String}
    (h : nonBlank? text = some trimmed) : EndsVisibly trimmed := by
  rw [nonBlank?, Option.filter_eq_some_iff] at h
  obtain ⟨hmap, hne⟩ := h
  obtain ⟨s, -, rfl⟩ := Option.map_eq_some_iff.mp hmap
  cases hlast : (dropBlankEnd (s.toList.dropWhile isBlank)).getLast? with
  | none =>
    rw [List.getLast?_eq_none_iff] at hlast
    rw [trim, hlast] at hne
    exact absurd hne (by decide)
  | some c => exact ⟨c, by rw [trim, String.toList_ofList, hlast], dropBlankEnd_getLast? hlast⟩

end Text

open Text

/-! ## Nothing is trimmed -/

theorem Comparison.endsVisibly_sql (comparison : Comparison) : EndsVisibly comparison.sql := by
  cases comparison <;> exact ⟨_, rfl, rfl⟩

/-- A condition ends in a parenthesis, a digit or an operator. -/
theorem Criterion.endsVisibly_condition (policy : Policy) (position : Nat)
    (criterion : Criterion) : EndsVisibly (criterion.planned policy position).condition := by
  unfold Plan.condition Plan.placeholders
  split
  · exact (endsVisibly_close.append _).append _
  · split
    · next slot rest hslots =>
      have hslot : slot ∈ (criterion.planned policy position).slots := by
        rw [hslots]
        exact List.mem_cons_self
      obtain ⟨c, hlast, hdigit⟩ := mem_slots_endsInDigit hslot
      have hname : EndsVisibly slot.name := ⟨c, hlast, isBlank_of_isDigit hdigit⟩
      exact (hname.append _).append _
    · rw [String.append_empty]
      exact (Comparison.endsVisibly_sql _).append _

/-- Every condition of a clause ends visibly. -/
theorem endsVisibly_condition {policy : Policy} {criteria : List Criterion} {plan : Plan}
    (h : plan ∈ planned policy criteria) : EndsVisibly plan.condition := by
  obtain ⟨i, criterion, -, -, rfl⟩ := mem_plannedFrom h
  exact criterion.endsVisibly_condition policy i

/-! ## The layout follows the outline -/

/-- A block holds what a passage says. -/
inductive Block.Writes : Block → Passage → Prop where
  | plain {opener : Plan} (lead : Option Connective) (h : opener.criterion.grouping = none) :
    Writes (.plain lead opener.condition) ⟨lead.map Connective.sql, opener, [opener]⟩
  | group {opener : Plan} {key : String} (lead : Option String) (others : List Plan)
    (h : opener.label = .group key) :
    Writes
      (.group key lead opener.condition
        (others.map fun plan => (plan.connective, plan.condition)) opener.after?)
      ⟨lead, opener, opener :: others⟩

/-- The label of a criterion in a group has the key of that group. -/
theorem Plan.label_eq_group_iff {plan : Plan} {key : String} :
    plan.label = .group key ↔
      ∃ grouping, plan.criterion.grouping = some grouping ∧ grouping.key = key := by
  unfold Plan.label
  cases plan.criterion.grouping <;> simp

theorem Plan.key?_eq_some_iff {plan : Plan} {key : String} :
    plan.criterion.key? = some key ↔ plan.label = .group key := by
  rw [Plan.label_eq_group_iff, Criterion.key?, Option.map_eq_some_iff]

/-- A block is found by its key where its passage has the label of that key. -/
theorem Block.Writes.hasKey_iff {block : Block} {passage : Passage} (h : Writes block passage)
    (key : String) : block.hasKey key = true ↔ passage.opener.label = .group key := by
  cases h with
  | plain lead h => simp [hasKey, Plan.label_eq_group_iff, h]
  | group lead others h => simp [hasKey, h]

/-- Joining a condition to a block is adding its criterion to the passage. -/
theorem Block.Writes.join {block : Block} {passage : Passage} (h : Writes block passage)
    {plan : Plan} {key : String} (hlabel : plan.label = .group key) :
    Writes (block.join key plan.connective plan.condition) (passage.extend plan) := by
  have hwrites := h
  cases h with
  | plain lead h =>
    rw [Passage.extend_of_ne]
    · exact hwrites
    · intro hsame
      obtain ⟨grouping, hgrouping, -⟩ := Plan.label_eq_group_iff.mp (hsame.symm.trans hlabel)
      rw [h] at hgrouping
      cases hgrouping
  | @group opener key' lead others h =>
    by_cases hkey : key' = key
    · have hsame : plan.label = opener.label := by rw [hlabel, h, hkey]
      rw [Block.join, if_pos hkey, Passage.extend, if_pos hsame]
      have := Writes.group lead (others ++ [plan]) h
      rwa [List.map_append] at this
    · rw [Block.join, if_neg hkey, Passage.extend_of_ne]
      · exact hwrites
      · intro hsame
        rw [hlabel, h, Label.group.injEq] at hsame
        exact hkey hsame.symm

/-- A block has the text of the passage that it holds, as no condition of it is trimmed. -/
theorem Block.Writes.text_eq {block : Block} {passage : Passage} (h : Writes block passage)
    (hends : ∀ plan ∈ passage.members, EndsVisibly plan.condition) :
    block.text = passage.text := by
  cases h with
  | plain lead h =>
    simp only [Block.text, Passage.text, Passage.core, Passage.after?, Plan.after?, h,
      Option.bind_none, Block.afterText, String.append_empty]
  | @group opener key lead others h =>
    obtain ⟨grouping, hgrouping, -⟩ := Plan.label_eq_group_iff.mp h
    have hbody : Block.body opener.condition
          (others.map fun plan => (plan.connective, plan.condition))
        = Passage.conjunction (opener :: others) := by
      rw [Block.body, Passage.conjunction, List.map_map]
      rfl
    -- The body ends in the condition of the last member, so nothing of it is trimmed.
    have hvisible : EndsVisibly (Passage.conjunction (opener :: others)) := by
      rcases List.eq_nil_or_concat others with rfl | ⟨front, last, rfl⟩
      · rw [Passage.conjunction, List.map_nil, String.join_nil, String.append_empty]
        exact hends opener List.mem_cons_self
      · have hlast := hends last (by simp)
        rw [Passage.conjunction, List.concat_eq_append, List.map_append, String.join_append,
          List.map_singleton, String.join_cons, String.join_nil, String.append_empty]
        exact ((hlast.append _).append _).append _
    rw [Block.text, hbody, hvisible.trimEnd_eq, Passage.text, Passage.core, hgrouping]
    simp only [Passage.after?, String.append_assoc]

/-- A group is open where a passage has its label. -/
theorem Block.any_hasKey_iff {blocks : List Block} {passages : List Passage}
    (h : List.Forall₂ Writes blocks passages) (key : String) :
    blocks.any (hasKey key) = true ↔ Label.group key ∈ passages.map (·.opener.label) := by
  induction h with
  | nil => simp
  | cons hwrites _ ih =>
    rw [List.any_cons, Bool.or_eq_true, ih, hwrites.hasKey_iff, List.map_cons, List.mem_cons,
      eq_comm]

/-- Blocks have the texts of the passages that they hold. -/
theorem Block.map_text_eq {blocks : List Block} {passages : List Passage}
    (h : List.Forall₂ Writes blocks passages)
    (hends : ∀ passage ∈ passages, ∀ plan ∈ passage.members, EndsVisibly plan.condition) :
    blocks.map text = passages.map Passage.text := by
  induction h with
  | nil => rfl
  | cons hwrites _ ih =>
    rw [List.map_cons, List.map_cons, hwrites.text_eq (hends _ List.mem_cons_self),
      ih fun passage hpassage => hends passage (List.mem_cons_of_mem _ hpassage)]

/-- The layout of some criteria is their outline, block by block, and it remembers
whether the last block brought a text after it. -/
structure Layout.Follows (layout : Layout) (plans : List Plan) : Prop where
  blocks : List.Forall₂ Block.Writes layout.blocks (outline plans)
  connected : layout.connected = ((openers plans).getLast?.bind Plan.after?).isSome

namespace Layout.Follows

variable {layout : Layout} {plans : List Plan} {plan : Plan}

/-- Nothing is laid out exactly before the criterion at position 1. -/
theorem isEmpty_eq (h : layout.Follows plans) (hp : Positioned (plans ++ [plan])) :
    layout.blocks.isEmpty = decide (plan.position = 1) := by
  obtain ⟨hplans, hposition⟩ := hp.of_concat
  have hlength : layout.blocks.length = (openers plans).length := by
    rw [h.blocks.length_eq, ← map_opener_outline, List.length_map]
  cases plans with
  | nil =>
    have hnil : layout.blocks = [] := List.length_eq_zero_iff.mp hlength
    rw [hnil, hposition]
    rfl
  | cons first rest =>
    obtain ⟨opener, hopener, -⟩ :=
      List.mem_map.mp (exists_passage hplans first List.mem_cons_self)
    have hpos : 0 < layout.blocks.length := by
      rw [hlength]
      exact List.length_pos_of_mem hopener
    have hne : plan.position ≠ 1 := by
      rw [hposition, List.length_cons]
      omega
    rw [decide_eq_false hne, List.isEmpty_eq_false_iff]
    exact List.ne_nil_of_length_pos hpos

/-- What leads into a plain condition. -/
theorem lead_eq (h : layout.Follows plans) (hp : Positioned (plans ++ [plan]))
    (hplain : plan.before? = none) :
    (layout.lead plan.connective).map Connective.sql
      = leadInto (openers plans).getLast? plan := by
  rw [Layout.lead, leadInto, h.isEmpty_eq hp, h.connected, hplain]
  by_cases hfirst : plan.position = 1
  · simp [hfirst]
  · cases (openers plans).getLast?.bind Plan.after? <;> simp [hfirst]

/-- What leads into a group. -/
theorem groupLead_eq (h : layout.Follows plans) (hp : Positioned (plans ++ [plan]))
    {grouping : Grouping} (hgrouping : plan.criterion.grouping = some grouping) :
    layout.groupLead plan.connective grouping = leadInto (openers plans).getLast? plan := by
  have hbefore : plan.before? = nonBlank? grouping.before := by
    rw [Plan.before?, hgrouping]
    rfl
  cases hb : plan.before? with
  | none =>
    rw [← h.lead_eq hp hb, Layout.groupLead, ← hbefore, hb, Layout.lead]
    cases layout.blocks.isEmpty <;> rfl
  | some before =>
    rw [Layout.groupLead, leadInto, h.isEmpty_eq hp, ← hbefore, hb]
    by_cases hfirst : plan.position = 1 <;> simp [hfirst]

/-- The key of a group is looked up among the labels of the criteria so far. -/
theorem any_hasKey_iff (h : layout.Follows plans) (hp : Positioned plans) (key : String) :
    layout.blocks.any (Block.hasKey key) = true ↔ ∃ other ∈ plans, other.label = .group key := by
  rw [Block.any_hasKey_iff h.blocks]
  constructor
  · intro hmem
    obtain ⟨passage, hpassage, hlabel⟩ := List.mem_map.mp hmem
    exact ⟨passage.opener, opener_mem hpassage, hlabel⟩
  · intro hparts
    obtain ⟨other, hother, hlabel⟩ := hparts
    have hmem := exists_passage hp other hother
    rw [← map_label_outline, hlabel] at hmem
    exact hmem

/-- A criterion with a label of its own is laid out as its passage. -/
theorem of_new (h : layout.Follows plans) (hp : Positioned (plans ++ [plan]))
    (hnew : ∀ other ∈ plans, other.label ≠ plan.label) {block : Block}
    (hwrites : block.Writes ⟨leadInto (openers plans).getLast? plan, plan, [plan]⟩) :
    Layout.Follows ⟨layout.blocks ++ [block], plan.after?.isSome⟩ (plans ++ [plan]) := by
  refine ⟨?_, ?_⟩
  · rw [outline_concat_of_new hp hnew]
    exact List.rel_append h.blocks (List.Forall₂.cons hwrites List.Forall₂.nil)
  · rw [openers_concat hp, if_pos hnew, List.getLast?_concat]
    rfl

/-- One more criterion keeps the layout in step with the outline. -/
theorem place (h : layout.Follows plans) (hp : Positioned (plans ++ [plan])) :
    (layout.place plan).Follows (plans ++ [plan]) := by
  obtain ⟨hplans, hposition⟩ := hp.of_concat
  unfold Layout.place
  split
  -- A plain condition: no other criterion has its position, so its label is new.
  · next hgrouping =>
    have hlabel : plan.label = .plain plan.position := by
      rw [Plan.label, hgrouping]
    have hnew : ∀ other ∈ plans, other.label ≠ plan.label := by
      intro other hother hsame
      have hle := hplans.position_le hother
      have hposition' := Plan.position_of_label (hsame.trans hlabel)
      omega
    have hwrites := Block.Writes.plain (layout.lead plan.connective) hgrouping
    rw [h.lead_eq hp (by rw [Plan.before?, hgrouping]; rfl)] at hwrites
    have hafter : plan.after? = none := by
      rw [Plan.after?, hgrouping]
      rfl
    have hfollows := h.of_new hp hnew hwrites
    rwa [hafter] at hfollows
  · next grouping hgrouping =>
    have hlabel : plan.label = .group grouping.key := by
      rw [Plan.label, hgrouping]
    split
    -- A later member of a group: no passage is opened, and what the layout remembers stays.
    · next hany =>
      have hold : ∃ other ∈ plans, other.label = plan.label := by
        rw [hlabel]
        exact (h.any_hasKey_iff hplans grouping.key).mp hany
      refine ⟨?_, ?_⟩
      · rw [outline_concat_of_old hp hold]
        refine List.forall₂_map_left_iff.mpr (List.forall₂_map_right_iff.mpr ?_)
        exact h.blocks.imp fun block passage hwrites => hwrites.join hlabel
      · have hnew : ¬ ∀ other ∈ plans, other.label ≠ plan.label := by
          obtain ⟨other, hother, hsame⟩ := hold
          exact fun hall => hall other hother hsame
        rw [openers_concat hp, if_neg hnew, List.append_nil]
        exact h.connected
    -- The first member of a group.
    · next hany =>
      have hnew : ∀ other ∈ plans, other.label ≠ plan.label := by
        intro other hother hsame
        exact hany ((h.any_hasKey_iff hplans grouping.key).mpr ⟨other, hother, hsame.trans hlabel⟩)
      have hafter : plan.after? = nonBlank? grouping.after := by
        rw [Plan.after?, hgrouping]
        rfl
      have hwrites := Block.Writes.group (leadInto (openers plans).getLast? plan) [] hlabel
      have hfollows := h.of_new hp hnew hwrites
      rw [hafter, ← h.groupLead_eq hp hgrouping] at hfollows
      exact hfollows

end Layout.Follows

/-- **The layout is the outline.** -/
theorem Layout.follows_ofPlans {plans : List Plan} (h : Positioned plans) :
    (Layout.ofPlans plans).Follows plans := by
  induction plans using List.reverseRecOn with
  | nil => exact ⟨List.Forall₂.nil, rfl⟩
  | append_singleton plans plan ih =>
    unfold Layout.ofPlans
    rw [List.foldl_append]
    exact (ih h.of_concat.1).place h

/-! ## The text -/

/-- The clause as its outline has it. -/
def outlineClause (plans : List Plan) : String :=
  " WHERE " ++ " ".intercalate ((outline plans).map Passage.text)

theorem Passage.endsVisibly_text {policy : Policy} {criteria : List Criterion} {passage : Passage}
    (h : passage ∈ outline (planned policy criteria)) : EndsVisibly passage.text := by
  unfold Passage.text
  cases hafter : passage.after? with
  | some after =>
    obtain ⟨grouping, -, hblank⟩ := Option.bind_eq_some_iff.mp hafter
    exact ((endsVisibly_of_nonBlank? hblank).append _).append _
  | none =>
    rw [Block.afterText, String.append_empty]
    refine EndsVisibly.append ?_ _
    unfold Passage.core
    split
    · exact endsVisibly_condition (opener_mem h)
    · exact endsVisibly_close.append _

/-- A list that is not empty has a passage. -/
theorem outline_planned_ne_nil {policy : Policy} {criteria : List Criterion}
    (hne : criteria ≠ []) : outline (planned policy criteria) ≠ [] := by
  obtain ⟨first, rest, rfl⟩ := List.exists_cons_of_ne_nil hne
  have hmem := exists_passage (positioned_planned policy (first :: rest))
    (first.planned policy 1) List.mem_cons_self
  rw [← map_label_outline] at hmem
  intro hnil
  rw [hnil] at hmem
  cases hmem

/-- The layout of an accepted list is written as its outline. -/
theorem Layout.clause_ofPlans {policy : Policy} {criteria : List Criterion} (hne : criteria ≠ []) :
    (Layout.ofPlans (planned policy criteria)).clause
      = outlineClause (planned policy criteria) := by
  have hp := positioned_planned policy criteria
  have htexts : (Layout.ofPlans (planned policy criteria)).blocks.map Block.text
      = (outline (planned policy criteria)).map Passage.text := by
    apply Block.map_text_eq (Layout.follows_ofPlans hp).blocks
    intro passage hpassage plan hplan
    exact endsVisibly_condition (mem_of_mem_members hp hpassage hplan)
  unfold Layout.clause outlineClause
  rw [htexts]
  refine EndsVisibly.trimEnd_eq (EndsVisibly.append (EndsVisibly.intercalate ?_ ?_) _)
  · exact mt List.map_eq_nil_iff.mp (outline_planned_ne_nil hne)
  · intro text htext
    obtain ⟨passage, hpassage, rfl⟩ := List.mem_map.mp htext
    exact Passage.endsVisibly_text hpassage

/-! ## The texts of later members -/

/-- A criterion in the group of its key, without any text around that. -/
def Criterion.withoutTexts (criterion : Criterion) : Criterion :=
  { criterion with grouping := criterion.grouping.map fun grouping => { key := grouping.key } }

/-- The criteria without the texts that later members bring to a group, where the groups
of the keys in `seen` have been opened before. -/
def dropLaterTexts (seen : List String) : List Criterion → List Criterion
  | [] => []
  | criterion :: rest =>
    match criterion.grouping with
    | none => criterion :: dropLaterTexts seen rest
    | some grouping =>
      if grouping.key ∈ seen then criterion.withoutTexts :: dropLaterTexts seen rest
      else criterion :: dropLaterTexts (grouping.key :: seen) rest

/-- Joining a condition to a block does not change its key. -/
theorem Block.hasKey_join (key key' : String) (connective : Connective) (condition : String)
    (block : Block) : (block.join key' connective condition).hasKey key = block.hasKey key := by
  cases block with
  | plain lead condition' => rfl
  | group key'' lead first others after =>
    by_cases h : key'' = key'
    · rw [Block.join, if_pos h]
      rfl
    · rw [Block.join, if_neg h]

/-- A group that is open stays open. -/
theorem Layout.any_hasKey_place {layout : Layout} {key : String}
    (h : layout.blocks.any (Block.hasKey key) = true) (plan : Plan) :
    (layout.place plan).blocks.any (Block.hasKey key) = true := by
  unfold Layout.place
  split
  · rw [List.any_append, h]
    rfl
  · next grouping hgrouping =>
    split
    · have hcomp : Block.hasKey key ∘ Block.join grouping.key plan.connective plan.condition
          = Block.hasKey key :=
        funext fun block => Block.hasKey_join key grouping.key plan.connective plan.condition block
      rw [List.any_map, hcomp]
      exact h
    · rw [List.any_append, h]
      rfl

/-- A member of a group leaves the group open. -/
theorem Layout.any_hasKey_place_self {layout : Layout} {plan : Plan} {grouping : Grouping}
    (hgrouping : plan.criterion.grouping = some grouping) :
    (layout.place plan).blocks.any (Block.hasKey grouping.key) = true := by
  by_cases hopen : layout.blocks.any (Block.hasKey grouping.key) = true
  · exact Layout.any_hasKey_place hopen plan
  · unfold Layout.place
    rw [hgrouping]
    dsimp only
    rw [if_neg hopen, List.any_append]
    simp [Block.hasKey]

/-- A later member is laid out by its condition and its connective alone. -/
theorem Layout.place_withoutTexts {layout : Layout} {policy : Policy} {position : Nat}
    {criterion : Criterion} {grouping : Grouping} (hgrouping : criterion.grouping = some grouping)
    (hopen : layout.blocks.any (Block.hasKey grouping.key) = true) :
    layout.place (criterion.withoutTexts.planned policy position)
      = layout.place (criterion.planned policy position) := by
  have hkey : (criterion.withoutTexts.planned policy position).criterion.grouping
      = some { key := grouping.key } := by
    show criterion.grouping.map _ = _
    rw [hgrouping]
    rfl
  have hsame : (criterion.planned policy position).criterion.grouping = some grouping := hgrouping
  unfold Layout.place
  rw [hkey, hsame]
  dsimp only
  rw [if_pos hopen, if_pos hopen]
  rfl

/-- The texts of a criterion are not looked at if its group is open already. -/
theorem foldl_place_dropLaterTexts (policy : Policy) :
    ∀ (criteria : List Criterion) (position : Nat) (seen : List String) (layout : Layout),
      (∀ key ∈ seen, layout.blocks.any (Block.hasKey key) = true) →
      (plannedFrom policy position (dropLaterTexts seen criteria)).foldl Layout.place layout
        = (plannedFrom policy position criteria).foldl Layout.place layout := by
  intro criteria
  induction criteria with
  | nil => intro position seen layout _; rfl
  | cons criterion rest ih =>
    intro position seen layout hseen
    have hstill : ∀ key ∈ seen,
        (layout.place (criterion.planned policy position)).blocks.any (Block.hasKey key) = true :=
      fun key hkey => Layout.any_hasKey_place (hseen key hkey) _
    unfold dropLaterTexts
    split
    · exact ih (position + 1) seen _ hstill
    · next grouping hgrouping =>
      split
      · next hmem =>
        rw [plannedFrom, List.foldl_cons, Layout.place_withoutTexts hgrouping (hseen _ hmem)]
        exact ih (position + 1) seen _ hstill
      -- The criterion opens its group, which from here on has been seen.
      · refine ih (position + 1) (grouping.key :: seen) _ ?_
        intro key hkey
        rcases List.mem_cons.mp hkey with rfl | hkey
        · exact Layout.any_hasKey_place_self hgrouping
        · exact hstill key hkey

/-- The texts around groups have no part in what is bound. -/
theorem map_slots_dropLaterTexts (policy : Policy) :
    ∀ (criteria : List Criterion) (position : Nat) (seen : List String),
      (plannedFrom policy position (dropLaterTexts seen criteria)).map Plan.slots
        = (plannedFrom policy position criteria).map Plan.slots := by
  intro criteria
  induction criteria with
  | nil => intro position seen; rfl
  | cons criterion rest ih =>
    intro position seen
    unfold dropLaterTexts
    split
    · exact congrArg (_ :: ·) (ih (position + 1) seen)
    · split
      · exact congrArg (_ :: ·) (ih (position + 1) seen)
      · exact congrArg (_ :: ·) (ih (position + 1) _)

/-- The texts around groups have no part in the checks. -/
theorem checks_dropLaterTexts {policy : Policy} :
    ∀ {criteria : List Criterion} {seen : List String},
      (∀ criterion ∈ dropLaterTexts seen criteria, criterion.cause? policy = none) ↔
        ∀ criterion ∈ criteria, criterion.cause? policy = none := by
  intro criteria
  induction criteria with
  | nil => intro seen; rfl
  | cons criterion rest ih =>
    intro seen
    unfold dropLaterTexts
    split
    · rw [List.forall_mem_cons, List.forall_mem_cons, ih]
    · split
      · rw [List.forall_mem_cons, List.forall_mem_cons, ih]
        exact Iff.rfl
      · rw [List.forall_mem_cons, List.forall_mem_cons, ih]

/-- The texts of later members decide nothing about acceptance. -/
theorem accepted_dropLaterTexts_iff {policy : Policy} {criteria : List Criterion} :
    Accepted policy (dropLaterTexts [] criteria) ↔ Accepted policy criteria := by
  have hnames : (planned policy (dropLaterTexts [] criteria)).flatMap Plan.names
      = (planned policy criteria).flatMap Plan.names := by
    have hslots := congrArg (List.map (List.map Binding.name))
      (map_slots_dropLaterTexts policy criteria 1 [])
    rw [List.map_map, List.map_map] at hslots
    exact congrArg List.flatten hslots
  constructor
  · intro h
    refine ⟨checks_dropLaterTexts.mp h.checks, ?_⟩
    rw [← hnames]
    exact h.nodup
  · intro h
    refine ⟨checks_dropLaterTexts.mpr h.checks, ?_⟩
    rw [hnames]
    exact h.nodup

/-- No criterion is dropped. -/
theorem dropLaterTexts_eq_nil_iff {seen : List String} {criteria : List Criterion} :
    dropLaterTexts seen criteria = [] ↔ criteria = [] := by
  cases criteria with
  | nil => exact Iff.rfl
  | cons criterion rest =>
    unfold dropLaterTexts
    split
    · simp
    · split <;> simp

/-- Only the first member of a group has a say in what stands around it. -/
theorem Where.ofPlans_dropLaterTexts (policy : Policy) (criteria : List Criterion) :
    Where.ofPlans (planned policy (dropLaterTexts [] criteria))
      = Where.ofPlans (planned policy criteria) := by
  have hlayout : Layout.ofPlans (planned policy (dropLaterTexts [] criteria))
      = Layout.ofPlans (planned policy criteria) :=
    foldl_place_dropLaterTexts policy criteria 1 [] Layout.empty fun key hkey => by cases hkey
  have hslots : (planned policy (dropLaterTexts [] criteria)).flatMap Plan.slots
      = (planned policy criteria).flatMap Plan.slots :=
    congrArg List.flatten (map_slots_dropLaterTexts policy criteria 1 [])
  unfold Where.ofPlans
  rw [hlayout, hslots]

/-! ## Compiling -/

/-- Lists that differ in the texts of later members alone compile to the same clause. -/
theorem Where.compile_dropLaterTexts {policy : Policy} {criteria : List Criterion}
    {clause : Where} (hne : criteria ≠ []) :
    compile policy (dropLaterTexts [] criteria) = .ok clause ↔
      compile policy criteria = .ok clause := by
  have hdropped : dropLaterTexts [] criteria ≠ [] :=
    fun hnil => hne (dropLaterTexts_eq_nil_iff.mp hnil)
  rw [compile_eq_ok_iff hdropped, compile_eq_ok_iff hne, accepted_dropLaterTexts_iff,
    ofPlans_dropLaterTexts]

/-- **Compiling is writing the outline**, whatever the order in which the groups come and
go. The texts of later members have no effect: any list with the same texts but for
those compiles to the same clause. -/
theorem Where.compile_eq_outline {policy : Policy} {criteria : List Criterion} {clause : Where}
    (hne : criteria ≠ []) (h : compile policy criteria = .ok clause) :
    IsOutline (planned policy criteria) (outline (planned policy criteria)) ∧
      clause.sql
        = " WHERE " ++ " ".intercalate ((outline (planned policy criteria)).map Passage.text) ∧
      ∀ other, dropLaterTexts [] other = dropLaterTexts [] criteria →
        compile policy other = .ok clause := by
  obtain ⟨haccepted, hclause⟩ := (compile_eq_ok_iff hne).mp h
  refine ⟨isOutline_outline (positioned_planned policy criteria), ?_, ?_⟩
  · rw [hclause]
    exact Layout.clause_ofPlans hne
  · intro other hsame
    have hother : other ≠ [] := by
      intro hnil
      rw [hnil] at hsame
      exact hne (dropLaterTexts_eq_nil_iff.mp hsame.symm)
    rw [← compile_dropLaterTexts hother, hsame, compile_dropLaterTexts hne]
    exact h

/-- Two groups that take turns around a plain condition: each stands where it begins, and
the texts of its later member are lost. -/
def interleaved : List Criterion :=
  [ { Criterion.equals "a" (.int 1) with grouping := some { key := "g", after := some " OR " } },
    Criterion.equals "b" (.int 2),
    { Criterion.isIn "c" [.int 3, .int 4] with
      grouping := some { key := "h", before := some "AND NOT" } },
    { Criterion.isNull "d" with
      connective := some .or
      grouping := some { key := "g", before := some "XOR", after := some "XOR" } } ]

theorem Where.compile_interleaved :
    let clause : Where :=
      ⟨" WHERE (a = :a1 OR d IS NULL) OR b = :b2 AND NOT (c IN (:c30,:c31))",
        (planned {} interleaved).flatMap Plan.slots⟩
    interleaved ≠ [] ∧ compile {} interleaved = .ok clause ∧
      IsOutline (planned {} interleaved) (outline (planned {} interleaved)) ∧
      clause.sql
        = " WHERE " ++ " ".intercalate ((outline (planned {} interleaved)).map Passage.text) ∧
      ∀ other, dropLaterTexts [] other = dropLaterTexts [] interleaved →
        compile {} other = .ok clause :=
  have hcompile : compile {} interleaved = .ok
      ⟨" WHERE (a = :a1 OR d IS NULL) OR b = :b2 AND NOT (c IN (:c30,:c31))",
        (planned {} interleaved).flatMap Plan.slots⟩ := by rfl
  ⟨by simp [interleaved], hcompile, compile_eq_outline (by simp [interleaved]) hcompile⟩

end BoundSql
