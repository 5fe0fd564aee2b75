import BoundSql.Proofs.Planning
import BoundSql.Where
import Mathlib.Data.List.Induction
import Mathlib.Data.List.Perm.Basic

/-!
# The outline of a WHERE clause

A second account of what a clause consists of, which looks at the whole list
at once. Each plain condition is a passage of its own, and so are all the
criteria of one group together, wherever they stand. A passage stands where
its opener does, the first of its criteria, and only the opener decides what
leads into the passage and what comes after it.

Nothing here is built up step by step. The lemmas say how the outline of a list
changes when one more criterion is written behind it:

> `outline_concat_of_new`, `outline_concat_of_old`: either there is one more
> passage at the end, or the criterion is added to the passage of its label,
> and everything else stays.

> `isOutline_outline`: the passages are one for each label, in the order of their
> openers, and each holds all criteria of its label.

> `perm_passages`: every criterion is in exactly one passage, once.
-/

namespace BoundSql

/-- What tells passages apart: the key of a group, or the position of a plain condition. -/
inductive Label where
  | plain (position : Nat)
  | group (key : String)
  deriving DecidableEq, Repr

/-- The key of the group to which a criterion belongs, if it belongs to one. -/
def Criterion.key? (criterion : Criterion) : Option String :=
  criterion.grouping.map Grouping.key

namespace Plan

/-- The label of the passage in which a criterion is written. -/
def label (plan : Plan) : Label :=
  match plan.criterion.grouping with
  | none => .plain plan.position
  | some grouping => .group grouping.key

theorem position_of_label {plan : Plan} {position : Nat} (h : plan.label = .plain position) :
    plan.position = position := by
  unfold label at h
  split at h
  · exact Label.plain.inj h
  · cases h

/-- The trimmed text before the group of a criterion, unless it is blank. -/
def before? (plan : Plan) : Option String :=
  plan.criterion.grouping.bind fun grouping => Text.nonBlank? grouping.before

/-- The trimmed text after the group of a criterion, unless it is blank. -/
def after? (plan : Plan) : Option String :=
  plan.criterion.grouping.bind fun grouping => Text.nonBlank? grouping.after

end Plan

/-- Whether a criterion is the first one of its label. -/
def opens (plans : List Plan) (plan : Plan) : Bool :=
  plans.all fun other => other.label ≠ plan.label || plan.position ≤ other.position

/-- The criteria that open a passage, from left to right. -/
def openers (plans : List Plan) : List Plan :=
  plans.filter (opens plans)

/-- All criteria of a label, in the order of the list. -/
def labelled (plans : List Plan) (label : Label) : List Plan :=
  plans.filter (·.label = label)

/-- What leads into the passage of `opener` when `previous` opens the one before it. -/
def leadInto (previous : Option Plan) (opener : Plan) : Option String :=
  if opener.position = 1 then none
  else
    match opener.before?, previous.bind Plan.after? with
    | some before, _ => some before
    | none, some _ => none
    | none, none => some opener.connective.sql

/-- A piece of the outer text: a plain condition, or a group. -/
structure Passage where
  /-- What leads into the passage. -/
  lead : Option String
  /-- The first of its criteria. -/
  opener : Plan
  /-- Its criteria in the order of the list. -/
  members : List Plan

namespace Passage

/-- The conditions of criteria, each but the first behind its own connective. -/
def conjunction : List Plan → String
  | [] => ""
  | first :: others =>
    first.condition ++ String.join (others.map fun plan =>
      " " ++ plan.connective.sql ++ " " ++ plan.condition)

/-- The passage without what leads into it and what comes after it. -/
def core (passage : Passage) : String :=
  match passage.opener.criterion.grouping with
  | none => passage.opener.condition
  | some _ => "(" ++ conjunction passage.members ++ ")"

/-- What comes after the passage. -/
def after? (passage : Passage) : Option String :=
  passage.opener.after?

/-- The text of the passage. -/
def text (passage : Passage) : String :=
  Block.leadText passage.lead ++ passage.core ++ Block.afterText passage.after?

/-- The passage with one more criterion, if that has its label. -/
def extend (plan : Plan) (passage : Passage) : Passage :=
  { passage with
    members := passage.members ++ if plan.label = passage.opener.label then [plan] else [] }

/-- A passage with another label is left as it is. -/
theorem extend_of_ne {plan : Plan} {passage : Passage} (h : plan.label ≠ passage.opener.label) :
    passage.extend plan = passage := by
  rw [extend, if_neg h, List.append_nil]

end Passage

/-- The passages of some openers, where `previous` opens the passage before them. -/
def passagesFrom (plans : List Plan) : Option Plan → List Plan → List Passage
  | _, [] => []
  | previous, opener :: rest =>
    ⟨leadInto previous opener, opener, labelled plans opener.label⟩
      :: passagesFrom plans (some opener) rest

/-- The passages of a clause, from left to right. -/
def outline (plans : List Plan) : List Passage :=
  passagesFrom plans none (openers plans)

/-! ## One more criterion -/

/-- Whether a criterion opens a passage is not changed by those after it. -/
theorem opens_concat {plans : List Plan} {plan last : Plan} (h : Positioned (plans ++ [last]))
    (hplan : plan ∈ plans) : opens (plans ++ [last]) plan = opens plans plan := by
  obtain ⟨hplans, hlast⟩ := h.of_concat
  have hle : plan.position ≤ last.position := by
    have := hplans.position_le hplan
    omega
  simp [opens, hle]

/-- The last criterion opens a passage exactly when its label is new. -/
theorem opens_concat_self {plans : List Plan} {last : Plan} (h : Positioned (plans ++ [last])) :
    opens (plans ++ [last]) last = true ↔ ∀ other ∈ plans, other.label ≠ last.label := by
  obtain ⟨hplans, hlast⟩ := h.of_concat
  unfold opens
  rw [List.all_eq_true]
  constructor
  · intro hall other hother
    have hcase := hall other (List.mem_append_left _ hother)
    have hlt := hplans.position_le hother
    rcases (Bool.or_eq_true _ _).mp hcase with hne | hle
    · exact of_decide_eq_true hne
    · have hle := of_decide_eq_true hle
      omega
  · intro hnew other hother
    rcases List.mem_append.mp hother with hother | hother
    · simp [hnew other hother]
    · rw [List.mem_singleton.mp hother]
      simp

/-- The last criterion is one more opener if its label is new. -/
theorem openers_concat {plans : List Plan} {last : Plan} (h : Positioned (plans ++ [last])) :
    openers (plans ++ [last])
      = openers plans ++ if ∀ other ∈ plans, other.label ≠ last.label then [last] else [] := by
  unfold openers
  rw [List.filter_append]
  congr 1
  · exact List.filter_congr fun plan hplan => opens_concat h hplan
  · have hself := opens_concat_self h
    by_cases hnew : ∀ other ∈ plans, other.label ≠ last.label
    · rw [if_pos hnew, List.filter_singleton, hself.mpr hnew]
      rfl
    · rw [if_neg hnew, List.filter_singleton]
      have hopens : opens (plans ++ [last]) last = false := by
        rw [Bool.eq_false_iff]
        exact fun htrue => hnew (hself.mp htrue)
      rw [hopens]
      rfl

/-- The last criterion is one more of its label. -/
theorem labelled_concat (plans : List Plan) (last : Plan) (label : Label) :
    labelled (plans ++ [last]) label
      = labelled plans label ++ if last.label = label then [last] else [] := by
  unfold labelled
  rw [List.filter_append, List.filter_singleton]
  by_cases h : last.label = label <;> simp [h]

/-- One more criterion in the list is one more in the passage of its label. -/
theorem passagesFrom_concat (plans : List Plan) (last : Plan) :
    ∀ (some_openers : List Plan) (previous : Option Plan),
      passagesFrom (plans ++ [last]) previous some_openers
        = (passagesFrom plans previous some_openers).map (Passage.extend last) := by
  intro some_openers
  induction some_openers with
  | nil => intro previous; rfl
  | cons opener rest ih =>
    intro previous
    rw [passagesFrom, passagesFrom, List.map_cons, ih, labelled_concat]
    rfl

/-- The passages of openers in two parts: the second part follows the last of the first. -/
theorem passagesFrom_append (plans : List Plan) :
    ∀ (first second : List Plan) (previous : Option Plan),
      passagesFrom plans previous (first ++ second)
        = passagesFrom plans previous first
          ++ passagesFrom plans (first.getLast?.or previous) second := by
  intro first
  induction first with
  | nil => intro second previous; rfl
  | cons opener rest ih =>
    intro second previous
    rw [List.cons_append, passagesFrom, ih, passagesFrom, List.cons_append]
    congr 3
    cases rest with
    | nil => rfl
    | cons next rest =>
      rw [List.getLast?_cons_cons, List.getLast?_eq_some_getLast (List.cons_ne_nil next rest)]
      rfl

theorem map_opener_passagesFrom (plans : List Plan) :
    ∀ (some_openers : List Plan) (previous : Option Plan),
      (passagesFrom plans previous some_openers).map Passage.opener = some_openers
  | [], _ => rfl
  | opener :: rest, _ =>
    congrArg (opener :: ·) (map_opener_passagesFrom plans rest (some opener))

/-- The openers of the outline are the openers of the list. -/
theorem map_opener_outline (plans : List Plan) :
    (outline plans).map Passage.opener = openers plans :=
  map_opener_passagesFrom plans (openers plans) none

/-- The labels of the passages are those of the openers. -/
theorem map_label_outline (plans : List Plan) :
    (outline plans).map (·.opener.label) = (openers plans).map Plan.label := by
  rw [← map_opener_outline, List.map_map]
  rfl

/-- Openers are criteria of the list. -/
theorem opener_mem {plans : List Plan} {passage : Passage} (h : passage ∈ outline plans) :
    passage.opener ∈ plans := by
  have hmem : passage.opener ∈ openers plans := by
    rw [← map_opener_outline]
    exact List.mem_map.mpr ⟨passage, h, rfl⟩
  exact (List.mem_filter.mp hmem).1

/-- A criterion with a label of its own is a passage behind all others. -/
theorem outline_concat_of_new {plans : List Plan} {last : Plan} (h : Positioned (plans ++ [last]))
    (hnew : ∀ other ∈ plans, other.label ≠ last.label) :
    outline (plans ++ [last])
      = outline plans ++ [⟨leadInto (openers plans).getLast? last, last, [last]⟩] := by
  have hmembers : labelled (plans ++ [last]) last.label = [last] := by
    rw [labelled_concat, if_pos rfl]
    have hnone : labelled plans last.label = [] :=
      List.filter_eq_nil_iff.mpr fun other hother => by simpa using hnew other hother
    rw [hnone, List.nil_append]
  have hextend : (outline plans).map (Passage.extend last) = outline plans := by
    rw [List.map_congr_left (g := id), List.map_id]
    intro passage hpassage
    exact Passage.extend_of_ne fun e => hnew _ (opener_mem hpassage) e.symm
  unfold outline
  rw [openers_concat h, if_pos hnew, passagesFrom_append, Option.or_none, passagesFrom,
    passagesFrom, hmembers, passagesFrom_concat]
  exact congrArg (· ++ _) hextend

/-- A criterion whose label is there already joins the passage of that label. -/
theorem outline_concat_of_old {plans : List Plan} {last : Plan} (h : Positioned (plans ++ [last]))
    (hold : ∃ other ∈ plans, other.label = last.label) :
    outline (plans ++ [last]) = (outline plans).map (Passage.extend last) := by
  have hnew : ¬ ∀ other ∈ plans, other.label ≠ last.label := by
    obtain ⟨other, hother, hlabel⟩ := hold
    exact fun hall => hall other hother hlabel
  unfold outline
  rw [openers_concat h, if_neg hnew, List.append_nil, passagesFrom_concat]

/-! ## Every criterion is in one passage -/

/-- Every criterion has the label of some passage. -/
theorem exists_passage {plans : List Plan} (h : Positioned plans) :
    ∀ plan ∈ plans, plan.label ∈ (openers plans).map Plan.label := by
  induction plans using List.reverseRecOn with
  | nil => intro plan hplan; cases hplan
  | append_singleton plans last ih =>
    have ih := ih h.of_concat.1
    intro plan hplan
    rw [openers_concat h, List.map_append]
    rcases List.mem_append.mp hplan with hplan | hplan
    · exact List.mem_append_left _ (ih plan hplan)
    · rw [List.mem_singleton.mp hplan]
      by_cases hnew : ∀ other ∈ plans, other.label ≠ last.label
      · rw [if_pos hnew]
        exact List.mem_append_right _ List.mem_cons_self
      · push Not at hnew
        obtain ⟨other, hother, hlabel⟩ := hnew
        exact List.mem_append_left _ (hlabel ▸ ih other hother)

/-- No two passages have the same label. -/
theorem nodup_labels {plans : List Plan} (h : Positioned plans) :
    ((openers plans).map Plan.label).Nodup := by
  induction plans using List.reverseRecOn with
  | nil => exact List.nodup_nil
  | append_singleton plans last ih =>
    have ih := ih h.of_concat.1
    rw [openers_concat h, List.map_append]
    split
    · next hnew =>
      refine List.nodup_append.mpr ⟨ih, by simp, fun label hlabel other hother hsame => ?_⟩
      obtain ⟨opener, hopener, rfl⟩ := List.mem_map.mp hlabel
      rw [List.map_singleton, List.mem_singleton] at hother
      exact hnew opener (List.mem_filter.mp hopener).1 (hsame.trans hother)
    · simpa using ih

/-- A criterion is added to as many passages as have its label. -/
theorem members_map_extend (last : Plan) :
    ∀ passages : List Passage,
      ((passages.map (Passage.extend last)).flatMap Passage.members).Perm
        (passages.flatMap Passage.members
          ++ List.replicate ((passages.map (·.opener.label)).count last.label) last) := by
  intro passages
  induction passages with
  | nil => exact List.Perm.nil
  | cons passage rest ih =>
    simp only [List.map_cons, List.flatMap_cons]
    by_cases hlabel : last.label = passage.opener.label
    · have hmembers : (passage.extend last).members = passage.members ++ [last] := by
        rw [Passage.extend, if_pos hlabel]
      rw [hmembers, hlabel, List.count_cons_self, List.replicate_succ', List.append_assoc,
        List.append_assoc]
      refine List.Perm.append_left _ ?_
      rw [← hlabel]
      exact (List.Perm.append_left [last] ih).trans (List.perm_append_comm.trans (by simp))
    · rw [Passage.extend_of_ne hlabel, List.count_cons_of_ne (fun e => hlabel e.symm),
        List.append_assoc]
      exact List.Perm.append_left _ ih

/-- **Every criterion is written once**: the passages together hold the criteria of the
list, each as often as it occurs there. -/
theorem perm_passages {plans : List Plan} (h : Positioned plans) :
    ((outline plans).flatMap Passage.members).Perm plans := by
  induction plans using List.reverseRecOn with
  | nil => exact List.Perm.nil
  | append_singleton plans last ih =>
    have hplans := h.of_concat.1
    have ih := ih hplans
    by_cases hnew : ∀ other ∈ plans, other.label ≠ last.label
    · rw [outline_concat_of_new h hnew, List.flatMap_append]
      exact List.Perm.append_right _ ih
    · push Not at hnew
      have hcount : ((outline plans).map (·.opener.label)).count last.label = 1 := by
        obtain ⟨other, hother, hlabel⟩ := hnew
        rw [map_label_outline, ← hlabel]
        exact List.count_eq_one_of_mem (nodup_labels hplans) (exists_passage hplans other hother)
      have hperm := members_map_extend last (outline plans)
      rw [hcount] at hperm
      rw [outline_concat_of_old h hnew]
      exact hperm.trans (List.Perm.append_right _ ih)

/-- A member of a passage is a criterion of the list. -/
theorem mem_of_mem_members {plans : List Plan} {passage : Passage} {plan : Plan}
    (h : Positioned plans) (hpassage : passage ∈ outline plans) (hplan : plan ∈ passage.members) :
    plan ∈ plans :=
  (perm_passages h).mem_iff.mp (List.mem_flatMap.mpr ⟨passage, hpassage, hplan⟩)

/-! ## What makes an outline -/

/-- Some passages are the outline of a list: one for each label, in the order of their
openers, with what leads into each settled by its opener and the one before. -/
structure IsOutline (plans : List Plan) (passages : List Passage) : Prop where
  distinct : (passages.map (·.opener.label)).Nodup
  complete : ∀ plan ∈ plans, ∃ passage ∈ passages, passage.opener.label = plan.label
  members : ∀ passage ∈ passages, passage.members = labelled plans passage.opener.label
  opened : ∀ passage ∈ passages, passage.members.head? = some passage.opener
  ordered : (passages.map (·.opener.position)).Pairwise (· < ·)
  leads : ∀ front passage back, passages = front ++ passage :: back →
    passage.lead = leadInto (front.getLast?.map Passage.opener) passage.opener

/-- Positions grow from left to right. -/
theorem Positioned.pairwise {plans : List Plan} (h : Positioned plans) :
    (plans.map Plan.position).Pairwise (· < ·) := by
  rw [h]
  exact List.pairwise_lt_range'

/-- Of all criteria with its label, the opener stands first. -/
theorem head?_labelled {plans : List Plan} {opener : Plan} (h : Positioned plans)
    (hopener : opener ∈ openers plans) : (labelled plans opener.label).head? = some opener := by
  obtain ⟨hmem, hopens⟩ := List.mem_filter.mp hopener
  have hself : opener ∈ labelled plans opener.label := List.mem_filter.mpr ⟨hmem, by simp⟩
  have hsorted : ((labelled plans opener.label).map Plan.position).Pairwise (· < ·) :=
    h.pairwise.sublist (List.filter_sublist.map _)
  cases hlabelled : labelled plans opener.label with
  | nil =>
    rw [hlabelled] at hself
    cases hself
  | cons first others =>
    rw [hlabelled] at hself hsorted
    rcases List.mem_cons.mp hself with rfl | hlater
    · rfl
    -- Otherwise `first` has the label of the opener and stands before it.
    · have hfirst : first ∈ labelled plans opener.label := by
        rw [hlabelled]
        exact List.mem_cons_self
      obtain ⟨hfirst, hlabel⟩ := List.mem_filter.mp hfirst
      have hlt : first.position < opener.position := by
        rw [List.map_cons, List.pairwise_cons] at hsorted
        exact hsorted.1 _ (List.mem_map.mpr ⟨opener, hlater, rfl⟩)
      have hle := List.all_eq_true.mp hopens first hfirst
      rw [Bool.or_eq_true, decide_eq_true_eq, decide_eq_true_eq] at hle
      rcases hle with hne | hle
      · exact absurd (of_decide_eq_true hlabel) hne
      · omega

/-- A passage holds all criteria with the label of its opener. -/
theorem members_passagesFrom {plans : List Plan} {passage : Passage} :
    ∀ {some_openers : List Plan} {previous : Option Plan},
      passage ∈ passagesFrom plans previous some_openers →
        passage.members = labelled plans passage.opener.label := by
  intro some_openers
  induction some_openers with
  | nil => intro previous h; cases h
  | cons opener rest ih =>
    intro previous h
    rcases List.mem_cons.mp h with rfl | h
    · rfl
    · exact ih h

/-- What leads into a passage is settled by its opener and the one before it. -/
theorem lead_passagesFrom {plans : List Plan} {passage : Passage} {back : List Passage} :
    ∀ {front : List Passage} {some_openers : List Plan} {previous : Option Plan},
      passagesFrom plans previous some_openers = front ++ passage :: back →
        passage.lead = leadInto ((front.getLast?.map Passage.opener).or previous)
          passage.opener := by
  intro front
  induction front with
  | nil =>
    intro some_openers previous h
    cases some_openers with
    | nil => cases h
    | cons opener rest =>
      obtain ⟨hpassage, -⟩ := List.cons.inj h
      subst hpassage
      rfl
  | cons first front ih =>
    intro some_openers previous h
    cases some_openers with
    | nil => cases h
    | cons opener rest =>
      obtain ⟨hfirst, hrest⟩ := List.cons.inj h
      subst hfirst
      rw [ih hrest]
      cases front with
      | nil => rfl
      | cons next front =>
        rw [List.getLast?_cons_cons,
          List.getLast?_eq_some_getLast (List.cons_ne_nil next front)]
        rfl

/-- **The outline is one.** -/
theorem isOutline_outline {plans : List Plan} (h : Positioned plans) :
    IsOutline plans (outline plans) := by
  have hpositions : (outline plans).map (·.opener.position)
      = (openers plans).map Plan.position := by
    rw [← map_opener_outline, List.map_map]
    rfl
  refine ⟨?_, ?_, ?_, ?_, ?_, ?_⟩
  · rw [map_label_outline]
    exact nodup_labels h
  · intro plan hplan
    have hmem := exists_passage h plan hplan
    rw [← map_label_outline] at hmem
    exact List.mem_map.mp hmem
  · intro passage hpassage
    exact members_passagesFrom hpassage
  · intro passage hpassage
    rw [members_passagesFrom hpassage]
    refine head?_labelled h ?_
    rw [← map_opener_outline]
    exact List.mem_map.mpr ⟨passage, hpassage, rfl⟩
  · rw [hpositions]
    exact h.pairwise.sublist (List.filter_sublist.map _)
  · intro front passage back hsplit
    rw [lead_passagesFrom hsplit, Option.or_none]

end BoundSql
