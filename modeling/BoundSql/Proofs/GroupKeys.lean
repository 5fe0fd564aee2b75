import BoundSql.Proofs.Rendering
import Mathlib.Data.Set.Function

/-!
# The keys of groups are only names

A key is compared with the keys of the blocks that are laid out and is never
written. Keys that are told apart may therefore be exchanged for any others that
are: planning does not look at them at all, and a layout with other keys stays
the same layout with other keys, criterion by criterion (`Layout.place_renamed`).
The other half is that comparing is all there is to it, so that criteria stand in
one pair of parentheses exactly if their keys are equal.

> `Where.keys_only_name`: other keys make no difference to what a list is compiled
> to, and equal keys alone bring criteria together.
-/

namespace BoundSql

/-- The keys of the groups of some criteria. -/
def groupKeys (criteria : List Criterion) : List String :=
  criteria.filterMap Criterion.key?

/-! ## Other keys -/

section Renaming

variable (rename : String → String)

/-- The same place in a group with another key. -/
def Grouping.renamed (grouping : Grouping) : Grouping :=
  { grouping with key := rename grouping.key }

/-- The criterion in a group with another key. -/
def Criterion.renamed (criterion : Criterion) : Criterion :=
  { criterion with grouping := criterion.grouping.map (Grouping.renamed rename) }

/-- The plan of the criterion in a group with another key. -/
def Plan.renamed (plan : Plan) : Plan :=
  { plan with criterion := plan.criterion.renamed rename }

/-- The block with another key. -/
def Block.renamed : Block → Block
  | plain lead condition => plain lead condition
  | group key lead first others after => group (rename key) lead first others after

/-- The layout with other keys. -/
def Layout.renamed (layout : Layout) : Layout :=
  { layout with blocks := layout.blocks.map (Block.renamed rename) }

/-! ## Planning does not look at keys -/

/-- The checks do not look at keys. -/
theorem Criterion.cause?_renamed (policy : Policy) (criterion : Criterion) :
    (criterion.renamed rename).cause? policy = criterion.cause? policy := rfl

/-- A plan has the key of its criterion, and nothing else of it changes with the key. -/
theorem Criterion.planned_renamed (policy : Policy) (position : Nat) (criterion : Criterion) :
    (criterion.renamed rename).planned policy position
      = (criterion.planned policy position).renamed rename := rfl

theorem Plan.names_renamed (plan : Plan) : (plan.renamed rename).names = plan.names := rfl

theorem Plan.grouping_renamed (plan : Plan) :
    (plan.renamed rename).criterion.grouping
      = plan.criterion.grouping.map (Grouping.renamed rename) := rfl

/-- Planning goes on from the same names, so it stops where it did and plans the same. -/
theorem planFrom_renamed (policy : Policy) :
    ∀ (criteria : List Criterion) (position : Nat) (taken : List String),
      planFrom policy position taken (criteria.map (Criterion.renamed rename))
        = (planFrom policy position taken criteria).map (List.map (Plan.renamed rename)) := by
  intro criteria
  induction criteria with
  | nil => intro position taken; rfl
  | cons criterion rest ih =>
    intro position taken
    rw [List.map_cons, planFrom_cons, planFrom_cons, Criterion.cause?_renamed,
      Criterion.planned_renamed, Plan.names_renamed]
    cases criterion.cause? policy with
    | some cause => rfl
    | none =>
      dsimp only
      cases firstTaken? taken (criterion.planned policy position).names with
      | some name => rfl
      | none =>
        dsimp only
        rw [ih]
        cases planFrom policy (position + 1)
          ((criterion.planned policy position).names ++ taken) rest <;> rfl

theorem planAll_renamed (policy : Policy) (criteria : List Criterion) :
    planAll policy (criteria.map (Criterion.renamed rename))
      = (planAll policy criteria).map (List.map (Plan.renamed rename)) :=
  planFrom_renamed rename policy criteria 1 []

/-! ## Layouts with other keys -/

/-- No key is written in a block. -/
theorem Block.text_renamed (block : Block) : (block.renamed rename).text = block.text := by
  cases block <;> rfl

theorem Block.isGroup_renamed (block : Block) :
    (block.renamed rename).isGroup = block.isGroup := by
  cases block <;> rfl

/-- No key is written. -/
theorem Layout.clause_renamed (layout : Layout) :
    (layout.renamed rename).clause = layout.clause := by
  have htext : Block.text ∘ Block.renamed rename = Block.text :=
    funext (Block.text_renamed rename)
  rw [clause, clause, renamed, List.map_map, htext]

/-- There are as many groups under other keys. -/
theorem Layout.groups_renamed (layout : Layout) :
    (layout.renamed rename).groups = layout.groups := by
  have hgroup : Block.isGroup ∘ Block.renamed rename = Block.isGroup :=
    funext (Block.isGroup_renamed rename)
  rw [groups, groups, renamed, List.countP_map, hgroup]

/-- What leads into a criterion does not depend on keys. -/
theorem Layout.lead_renamed (layout : Layout) (connective : Connective) :
    (layout.renamed rename).lead connective = layout.lead connective := by
  rw [lead, lead, renamed, List.isEmpty_map]

theorem Layout.groupLead_renamed (layout : Layout) (connective : Connective)
    (grouping : Grouping) :
    (layout.renamed rename).groupLead connective (grouping.renamed rename)
      = layout.groupLead connective grouping := by
  rw [groupLead, groupLead, lead_renamed, renamed, List.isEmpty_map]
  rfl

end Renaming

section Apart

/-- The key of a block, if it has one, is one of some keys. -/
def Block.KeyIn (keys : Set String) (block : Block) : Prop :=
  ∀ key, block.hasKey key = true → key ∈ keys

/-- The key of a plan, if it has one, is one of some keys. -/
def Plan.KeyIn (keys : Set String) (plan : Plan) : Prop :=
  ∀ key, plan.criterion.key? = some key → key ∈ keys

variable {rename : String → String} {keys : Set String} {block : Block} {layout : Layout}
  {plan : Plan}

/-- Keys that are told apart find the same blocks after they are exchanged. -/
theorem Block.hasKey_renamed (hinj : Set.InjOn rename keys) (hblock : block.KeyIn keys)
    {key : String} (hkey : key ∈ keys) :
    (block.renamed rename).hasKey (rename key) = block.hasKey key := by
  cases block with
  | plain lead condition => rfl
  | group own lead first others after =>
    -- The renaming need not be injective elsewhere, hence the two memberships.
    have hown : own ∈ keys := hblock own (beq_self_eq_true own)
    show (rename own == rename key) = (own == key)
    rw [Bool.eq_iff_iff, beq_iff_eq, beq_iff_eq]
    exact hinj.eq_iff hown hkey

/-- A criterion joins the same blocks, as the others have other keys after the exchange as well. -/
theorem Block.join_renamed (hinj : Set.InjOn rename keys) (hblock : block.KeyIn keys)
    {key : String} (hkey : key ∈ keys) (connective : Connective) (condition : String) :
    (block.renamed rename).join (rename key) connective condition
      = (block.join key connective condition).renamed rename := by
  cases block with
  | plain lead condition' => rfl
  | group own lead first others after =>
    have hown : own ∈ keys := hblock own (beq_self_eq_true own)
    rw [renamed, join, join]
    by_cases hsame : own = key
    · rw [if_pos hsame, if_pos (congrArg rename hsame)]
      rfl
    · rw [if_neg hsame, if_neg (mt (hinj hown hkey) hsame)]
      rfl

/-- A group is open after the keys are exchanged if it was open before. -/
theorem Layout.any_hasKey_renamed (hinj : Set.InjOn rename keys)
    (hlayout : ∀ block ∈ layout.blocks, block.KeyIn keys) {key : String} (hkey : key ∈ keys) :
    (layout.renamed rename).blocks.any (Block.hasKey (rename key))
      = layout.blocks.any (Block.hasKey key) := by
  rw [renamed, List.any_map, Bool.eq_iff_iff, List.any_eq_true, List.any_eq_true]
  refine exists_congr fun block => and_congr_right fun hblock => ?_
  exact Bool.eq_iff_iff.mp (Block.hasKey_renamed hinj (hlayout block hblock) hkey)

/-- **One more criterion** is laid out in the same way whatever the keys are. -/
theorem Layout.place_renamed (hinj : Set.InjOn rename keys)
    (hlayout : ∀ block ∈ layout.blocks, block.KeyIn keys) (hplan : plan.KeyIn keys) :
    (layout.renamed rename).place (plan.renamed rename)
      = (layout.place plan).renamed rename := by
  cases hgrouping : plan.criterion.grouping with
  | none =>
    rw [place, place, Plan.grouping_renamed, hgrouping, Option.map_none]
    dsimp only
    rw [lead_renamed, renamed, renamed, List.map_append]
    rfl
  | some grouping =>
    have hkey : grouping.key ∈ keys := hplan grouping.key (by rw [Criterion.key?, hgrouping]; rfl)
    have hany : (layout.renamed rename).blocks.any (Block.hasKey (grouping.renamed rename).key)
        = layout.blocks.any (Block.hasKey grouping.key) := any_hasKey_renamed hinj hlayout hkey
    rw [place, place, Plan.grouping_renamed, hgrouping, Option.map_some]
    dsimp only
    rw [hany]
    by_cases hopen : layout.blocks.any (Block.hasKey grouping.key) = true
    -- The group is open in both, and every block takes the criterion or leaves it in both.
    · rw [if_pos hopen, if_pos hopen, renamed, renamed, List.map_map, List.map_map]
      refine congrArg (Layout.mk · layout.connected) (List.map_congr_left fun block hblock => ?_)
      exact Block.join_renamed hinj (hlayout block hblock) hkey plan.connective plan.condition
    · have hlead : (layout.renamed rename).groupLead (plan.renamed rename).connective
          (grouping.renamed rename) = layout.groupLead plan.connective grouping :=
        groupLead_renamed rename layout plan.connective grouping
      rw [if_neg hopen, if_neg hopen, hlead, renamed, renamed, List.map_append]
      rfl

/-- A criterion brings no key but its own. -/
theorem Layout.keyIn_place (hlayout : ∀ block ∈ layout.blocks, block.KeyIn keys)
    (hplan : plan.KeyIn keys) : ∀ block ∈ (layout.place plan).blocks, block.KeyIn keys := by
  intro block hblock
  unfold place at hblock
  split at hblock
  · rcases List.mem_append.mp hblock with hblock | hblock
    · exact hlayout block hblock
    · rw [List.mem_singleton.mp hblock]
      intro key hkey
      cases hkey
  · next grouping hgrouping =>
    split at hblock
    · obtain ⟨joined, hjoined, rfl⟩ := List.mem_map.mp hblock
      intro key hkey
      rw [Block.hasKey_join] at hkey
      exact hlayout joined hjoined key hkey
    · rcases List.mem_append.mp hblock with hblock | hblock
      · exact hlayout block hblock
      · rw [List.mem_singleton.mp hblock]
        intro key hkey
        rw [← beq_iff_eq.mp hkey]
        exact hplan grouping.key (by rw [Criterion.key?, hgrouping]; rfl)

/-- Laid out one after the other, criteria with other keys stay apart and together as before. -/
theorem Layout.foldl_place_renamed (hinj : Set.InjOn rename keys) :
    ∀ {plans : List Plan} {layout : Layout}, (∀ plan ∈ plans, plan.KeyIn keys) →
      (∀ block ∈ layout.blocks, block.KeyIn keys) →
      (plans.map (Plan.renamed rename)).foldl place (layout.renamed rename)
        = (plans.foldl place layout).renamed rename := by
  intro plans
  induction plans with
  | nil => intro layout _ _; rfl
  | cons plan rest ih =>
    intro layout hplans hlayout
    obtain ⟨hplan, hrest⟩ := List.forall_mem_cons.mp hplans
    rw [List.map_cons, List.foldl_cons, List.foldl_cons, place_renamed hinj hlayout hplan]
    exact ih hrest (keyIn_place hlayout hplan)

/-- **A whole list** is laid out in the same way whatever its keys are. -/
theorem Layout.ofPlans_renamed (hinj : Set.InjOn rename keys) {plans : List Plan}
    (hplans : ∀ plan ∈ plans, plan.KeyIn keys) :
    ofPlans (plans.map (Plan.renamed rename)) = (ofPlans plans).renamed rename := by
  show (plans.map (Plan.renamed rename)).foldl place (empty.renamed rename)
    = (plans.foldl place empty).renamed rename
  exact foldl_place_renamed hinj hplans fun _ hblock => by cases hblock

/-- Plans have no keys but those of their criteria. -/
theorem keyIn_planned (policy : Policy) (criteria : List Criterion) :
    ∀ plan ∈ planned policy criteria, plan.KeyIn { key | key ∈ groupKeys criteria } := by
  intro plan hplan key hkey
  obtain ⟨_, criterion, -, hcriterion, rfl⟩ := mem_plannedFrom hplan
  exact List.mem_filterMap.mpr ⟨criterion, hcriterion, hkey⟩

end Apart

/-! ## Compiling -/

namespace Where

/-- The clause of plans is that of the plans with other keys. -/
theorem ofPlans_renamed {rename : String → String} {keys : Set String}
    (hinj : Set.InjOn rename keys) {plans : List Plan} (hplans : ∀ plan ∈ plans, plan.KeyIn keys) :
    ofPlans (plans.map (Plan.renamed rename)) = ofPlans plans := by
  rw [ofPlans, ofPlans, Layout.ofPlans_renamed hinj hplans, Layout.clause_renamed,
    List.flatMap_map]
  rfl

/-- Keys that are told apart are exchanged without a trace, in what is reported as well. -/
theorem compileTraced_renamed {rename : String → String} {criteria : List Criterion}
    (hinj : Set.InjOn rename { key | key ∈ groupKeys criteria }) (debug : Bool)
    (policy : Policy) :
    compileTraced debug policy (criteria.map (Criterion.renamed rename))
      = compileTraced debug policy criteria := by
  unfold compileTraced
  rw [planAll_renamed, List.isEmpty_map, List.length_map]
  cases hplans : planAll policy criteria with
  | error fault => rfl
  | ok plans =>
    obtain ⟨-, rfl⟩ := planAll_eq_ok_iff.mp hplans
    have hclause := ofPlans_renamed hinj (keyIn_planned policy criteria)
    have hlayout := Layout.ofPlans_renamed hinj (keyIn_planned policy criteria)
    have hstep : ∀ (plans : List Plan) (next : List Plan → Trace Where),
        Trace.ofExcept (.ok plans) >>= next = next plans := fun _ _ => rfl
    rw [Except.map, hstep, hstep, hclause, hlayout, Layout.groups_renamed, List.map_map]
    rfl

end Where

/-! ## Criteria that stand together -/

/-- Two criteria stand in one pair of parentheses: one passage is a group and has both. -/
def Enclosed (plans : List Plan) (first second : Plan) : Prop :=
  ∃ passage ∈ outline plans, passage.opener.criterion.grouping.isSome = true ∧
    first ∈ passage.members ∧ second ∈ passage.members

/-- Criteria are brought together by equal keys alone. -/
theorem enclosed_iff {plans : List Plan} (h : Positioned plans) {first second : Plan}
    (hfirst : first ∈ plans) (hsecond : second ∈ plans) :
    Enclosed plans first second ↔
      ∃ key, first.criterion.key? = some key ∧ second.criterion.key? = some key := by
  have houtline := isOutline_outline h
  -- A passage has all criteria of its label, and for a group that is the key.
  have hmember : ∀ passage ∈ outline plans, ∀ plan,
      plan ∈ passage.members ↔ plan ∈ plans ∧ plan.label = passage.opener.label := by
    intro passage hpassage plan
    rw [houtline.members passage hpassage, labelled, List.mem_filter, decide_eq_true_eq]
  simp only [Plan.key?_eq_some_iff]
  constructor
  · intro henclosed
    obtain ⟨passage, hpassage, hgroup, hfirst, hsecond⟩ := henclosed
    obtain ⟨grouping, hgrouping⟩ := Option.isSome_iff_exists.mp hgroup
    have hlabel : passage.opener.label = .group grouping.key :=
      Plan.label_eq_group_iff.mpr ⟨grouping, hgrouping, rfl⟩
    exact ⟨grouping.key, ((hmember passage hpassage first).mp hfirst).2.trans hlabel,
      ((hmember passage hpassage second).mp hsecond).2.trans hlabel⟩
  · intro hsame
    obtain ⟨key, hfirstKey, hsecondKey⟩ := hsame
    obtain ⟨passage, hpassage, hlabel⟩ := houtline.complete first hfirst
    obtain ⟨grouping, hgrouping, -⟩ := Plan.label_eq_group_iff.mp (hlabel.trans hfirstKey)
    refine ⟨passage, hpassage, by rw [hgrouping]; rfl, ?_, ?_⟩
    · exact (hmember passage hpassage first).mpr ⟨hfirst, hlabel.symm⟩
    · refine (hmember passage hpassage second).mpr ⟨hsecond, ?_⟩
      rw [hlabel, hfirstKey, hsecondKey]

/-- **Keys are only names.** Exchanging the keys of a list for others that are told apart as well
changes nothing of what the list is compiled to, be that a clause with its bindings or a fault,
and nothing of what is reported. What keys do is to bring criteria together: of the passages of
which a clause consists, one is a group with both of two criteria exactly if these are in groups
of equal keys. -/
theorem Where.keys_only_name (policy : Policy) (criteria : List Criterion) :
    (∀ rename : String → String, Set.InjOn rename { key | key ∈ groupKeys criteria } →
        compile policy (criteria.map (Criterion.renamed rename)) = compile policy criteria ∧
        ∀ debug, compileTraced debug policy (criteria.map (Criterion.renamed rename))
          = compileTraced debug policy criteria) ∧
      ∀ clause, criteria ≠ [] → compile policy criteria = .ok clause →
        clause.sql = outlineClause (planned policy criteria) ∧
        ∀ first ∈ planned policy criteria, ∀ second ∈ planned policy criteria,
          Enclosed (planned policy criteria) first second ↔
            ∃ key, first.criterion.key? = some key ∧ second.criterion.key? = some key := by
  refine ⟨fun rename hinj => ⟨?_, fun debug => compileTraced_renamed hinj debug policy⟩, ?_⟩
  · exact congrArg Trace.result (compileTraced_renamed hinj false policy)
  · intro clause hne hclause
    obtain ⟨-, rfl⟩ := (compile_eq_ok_iff hne).mp hclause
    refine ⟨Layout.clause_ofPlans hne, fun first hfirst second hsecond => ?_⟩
    exact enclosed_iff (positioned_planned policy criteria) hfirst hsecond

/-- Three groups in turns, with no key, that of a column and that of a piece of the clause. -/
def entangled : List Criterion :=
  [{ Criterion.equals "a" (.int 1) with grouping := some { key := "" } },
    { Criterion.equals "b" (.int 2) with
      grouping := some { key := "a", before := some "OR", after := some "AND" } },
    { Criterion.equals "a" (.int 3) with grouping := some { key := ") OR (" } },
    { Criterion.isNull "b" with connective := some .or, grouping := some { key := "" } },
    { Criterion.isIn "c" [.int 4, .int 5] with grouping := some { key := "a" } }]

/-- Other keys for them, some of which are keys of other groups. -/
def otherKeys : String → String
  | "" => "a"
  | "a" => ") OR ("
  | _ => "\x7b0\x7d"

theorem Where.keys_only_name_entangled :
    compile {} (entangled.map (Criterion.renamed otherKeys)) = .ok
        ⟨" WHERE (a = :a1 OR b IS NULL) OR (b = :b2 AND c IN (:c50,:c51)) AND (a = :a3)",
          (planned {} entangled).flatMap Plan.slots⟩ ∧
      Enclosed (planned {} entangled) (entangled[0].planned {} 1) (entangled[3].planned {} 4) ∧
      ¬ Enclosed (planned {} entangled) (entangled[0].planned {} 1)
        (entangled[2].planned {} 3) := by
  obtain ⟨hrenamed, henclosed⟩ := keys_only_name {} entangled
  have hinj : Set.InjOn otherKeys { key | key ∈ groupKeys entangled } := by
    have hapart : ∀ key ∈ groupKeys entangled, ∀ other ∈ groupKeys entangled,
        otherKeys key = otherKeys other → key = other := by decide
    intro key hkey other hother
    exact hapart key hkey other hother
  have hclause : compile {} entangled = .ok
      ⟨" WHERE (a = :a1 OR b IS NULL) OR (b = :b2 AND c IN (:c50,:c51)) AND (a = :a3)",
        (planned {} entangled).flatMap Plan.slots⟩ := by rfl
  obtain ⟨-, hsame⟩ := henclosed _ (by simp [entangled]) hclause
  have hfirst : entangled[0].planned {} 1 ∈ planned {} entangled := .head _
  have hthird : entangled[2].planned {} 3 ∈ planned {} entangled :=
    .tail _ (.tail _ (.head _))
  have hfourth : entangled[3].planned {} 4 ∈ planned {} entangled :=
    .tail _ (.tail _ (.tail _ (.head _)))
  refine ⟨(hrenamed otherKeys hinj).1.trans hclause, ?_, ?_⟩
  · exact (hsame _ hfirst _ hfourth).mpr ⟨"", rfl, rfl⟩
  · intro h
    obtain ⟨_, hkey, hkey'⟩ := (hsame _ hfirst _ hthird).mp h
    exact absurd (hkey.trans hkey'.symm) (by decide)

end BoundSql
