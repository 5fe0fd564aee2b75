import BoundSql.Proofs.Connective
import BoundSql.Proofs.Legibility

/-!
# A clause says what it is made of

Two clauses with the same text have the same passages, and these the same
conditions, connectives and placeholders. That holds as long as callers write
no text around groups and no column takes part in the grammar.

A group is a row of legible conditions up to the parenthesis that closes it, and
a plain condition does not begin with a parenthesis, so passages are legible. A
clause is a row of them: without texts around groups, each passage but the first
stands behind the connective of its opener.

> `Where.sql_determines_figures`: from the text of a clause one can tell its passages.
-/

namespace BoundSql

open Placeholder

/-! ## Passages -/

/-- What a reader can tell of a passage, but for what leads into it. -/
structure Content where
  grouped : Bool
  conditions : List Condition
  /-- What stands between the conditions of a group. -/
  connectives : List Connective
  deriving DecidableEq, Repr

/-- The content of a passage as a reader sees it. -/
def Passage.content (passage : Passage) : Content where
  grouped := passage.opener.criterion.grouping.isSome
  conditions := passage.members.map Plan.seen
  connectives := passage.members.tail.map Plan.connective

/-- A passage that some block writes, with readable criteria. -/
structure Passage.Readable (passage : Passage) : Prop where
  written : ∃ block : Block, block.Writes passage
  members : ∀ plan ∈ passage.members, plan.Readable

/-- The conditions of a group are legible up to the parenthesis that closes it. -/
theorem conjunction_inj {first first' : Plan} {others others' : List Plan}
    (h : ∀ plan ∈ first :: others, plan.Readable) (h' : ∀ plan ∈ first' :: others', plan.Readable)
    {rest rest' : List Char}
    (hsame : (Passage.conjunction (first :: others)).toList ++ ')' :: rest
      = (Passage.conjunction (first' :: others')).toList ++ ')' :: rest') :
    (first :: others).map Plan.seen = (first' :: others').map Plan.seen ∧
      others.map Plan.connective = others'.map Plan.connective ∧ rest = rest' := by
  obtain ⟨hfirst, hothers⟩ := List.forall_mem_cons.mp h
  obtain ⟨hfirst', hothers'⟩ := List.forall_mem_cons.mp h'
  have hclose : ∀ rest : List Char, EndsRow (')' :: rest) :=
    fun rest c hc => (Option.mem_some.mp hc).symm
  have hrow : ∀ (first : Plan) (others : List Plan),
      Passage.conjunction (first :: others)
        = first.condition ++ row Plan.connective Plan.condition others := fun _ _ => rfl
  rw [hrow, hrow, String.toList_append, String.toList_append, List.append_assoc,
    List.append_assoc] at hsame
  obtain ⟨hseen, hsame⟩ := legible_condition hfirst hfirst'
    ((hclose rest).fenced_row _ _ _) ((hclose rest').fenced_row _ _ _) hsame
  obtain ⟨hpairs, hends⟩ :=
    legible_condition.row Plan.connective hothers hothers' (hclose rest) (hclose rest') hsame
  have hseens := congrArg (List.map Prod.snd) hpairs
  have hjoints := congrArg (List.map Prod.fst) hpairs
  rw [List.map_map, List.map_map] at hseens hjoints
  refine ⟨?_, hjoints, (List.cons.inj hends).2⟩
  rw [List.map_cons, List.map_cons, hseen]
  exact congrArg _ hseens

/-- **Passages are legible**, but for what leads into them. -/
theorem legible_core : Legible Passage.Readable Passage.core Passage.content := by
  intro passage passage' h h' rest rest' hrest hrest' hsame
  obtain ⟨⟨block, hwrites⟩, hmembers⟩ := h
  obtain ⟨⟨block', hwrites'⟩, hmembers'⟩ := h'
  have hgroup : ∀ {lead : Option String} {opener : Plan} {key : String} (others : List Plan)
      (rest : List Char), opener.label = .group key →
      (Passage.core ⟨lead, opener, opener :: others⟩).toList ++ rest
        = '(' :: ((Passage.conjunction (opener :: others)).toList ++ ')' :: rest) := by
    intro lead opener key others rest hlabel
    obtain ⟨grouping, hgrouping, -⟩ := Plan.label_eq_group_iff.mp hlabel
    unfold Passage.core
    simp only [hgrouping, String.toList_append, List.append_assoc]
    rfl
  have hplain : ∀ {lead : Option String} {opener : Plan},
      opener.criterion.grouping = none →
      (Passage.core ⟨lead, opener, [opener]⟩).toList = opener.condition.toList := by
    intro lead opener hnone
    unfold Passage.core
    simp only [hnone]
  cases hwrites with
  | @plain opener lead hnone =>
    rw [hplain hnone] at hsame
    cases hwrites' with
    | @plain opener' lead' hnone' =>
      rw [hplain hnone'] at hsame
      obtain ⟨hseen, hends⟩ := legible_condition (hmembers opener List.mem_cons_self)
        (hmembers' opener' List.mem_cons_self) hrest hrest' hsame
      refine ⟨?_, hends⟩
      simp only [Passage.content, hnone, hnone', List.map_singleton, hseen, List.tail_cons,
        List.map_nil]
    | @group opener' key' lead' others' hlabel' =>
      rw [hgroup others' rest' hlabel'] at hsame
      have hhead := (hmembers opener List.mem_cons_self).head?_condition rest
      rw [hsame] at hhead
      exact absurd rfl hhead
  | @group opener key lead others hlabel =>
    rw [hgroup others rest hlabel] at hsame
    cases hwrites' with
    | @plain opener' lead' hnone' =>
      rw [hplain hnone'] at hsame
      have hhead := (hmembers' opener' List.mem_cons_self).head?_condition rest'
      rw [← hsame] at hhead
      exact absurd rfl hhead
    | @group opener' key' lead' others' hlabel' =>
      rw [hgroup others' rest' hlabel'] at hsame
      obtain ⟨hseen, hjoints, hends⟩ :=
        conjunction_inj hmembers hmembers' (List.cons.inj hsame).2
      refine ⟨?_, hends⟩
      obtain ⟨_, hgrouping, -⟩ := Plan.label_eq_group_iff.mp hlabel
      obtain ⟨_, hgrouping', -⟩ := Plan.label_eq_group_iff.mp hlabel'
      unfold Passage.content
      simp only [hgrouping, hgrouping', Option.isSome_some, List.tail_cons]
      rw [hseen, hjoints]

/-! ## Clauses -/

/-- What a reader can tell of a passage. -/
structure Figure where
  lead : Option String
  content : Content
  deriving DecidableEq, Repr

/-- A passage as a reader sees it. -/
def Passage.figure (passage : Passage) : Figure := ⟨passage.lead, passage.content⟩

/-- A criterion writes nothing of its caller's own but a column of plain characters. -/
structure Criterion.Plain (criterion : Criterion) : Prop where
  column : ∀ c ∈ criterion.column.toList, isColumnChar c = true
  before : ∀ grouping ∈ criterion.grouping, Text.nonBlank? grouping.before = none
  after : ∀ grouping ∈ criterion.grouping, Text.nonBlank? grouping.after = none

/-- A plain criterion brings no text that could stand around a group. -/
theorem Criterion.Plain.around {policy : Policy} {criterion : Criterion} (h : criterion.Plain)
    (position : Nat) :
    (criterion.planned policy position).before? = none ∧
      (criterion.planned policy position).after? = none := by
  have hsame : (criterion.planned policy position).criterion = criterion := rfl
  unfold Plan.before? Plan.after?
  rw [hsame]
  cases hgrouping : criterion.grouping with
  | none => exact ⟨rfl, rfl⟩
  | some grouping => exact ⟨h.before grouping hgrouping, h.after grouping hgrouping⟩

/-- Texts joined by blanks are the first and then each other behind a blank. -/
theorem intercalate_blank_cons (text : String) : ∀ texts : List String,
    " ".intercalate (text :: texts) = text ++ String.join (texts.map (" " ++ ·)) := by
  intro texts
  induction texts generalizing text with
  | nil => rw [String.intercalate_singleton, List.map_nil, String.join_nil, String.append_empty]
  | cons next texts ih =>
    rw [String.intercalate_cons_cons, ih, List.map_cons, String.join_cons, String.append_assoc,
      String.append_assoc]

section

variable {policy : Policy} {criteria : List Criterion}

/-- A passage of plain criteria can be read. -/
theorem Passage.readable_of_mem (haccepted : Accepted policy criteria)
    (hplain : ∀ criterion ∈ criteria, criterion.Plain) {passage : Passage}
    (h : passage ∈ outline (planned policy criteria)) : passage.Readable := by
  have hp := positioned_planned policy criteria
  refine ⟨exists_writes hp h, fun plan hplan => ?_⟩
  obtain ⟨i, criterion, -, hcriterion, rfl⟩ := mem_plannedFrom (mem_of_mem_members hp h hplan)
  exact Criterion.readable_planned (haccepted.checks criterion hcriterion)
    (hplain criterion hcriterion).column

/-- Without texts around groups, the connective of its opener leads into each passage but
the first. -/
theorem lead_of_plain (hplain : ∀ criterion ∈ criteria, criterion.Plain) {first : Passage}
    {others : List Passage} (h : outline (planned policy criteria) = first :: others) :
    first.lead = none ∧ ∀ passage ∈ others, passage.lead = some passage.opener.connective.sql := by
  have hp := positioned_planned policy criteria
  have haround : ∀ passage ∈ first :: others,
      passage.opener.before? = none ∧ passage.after? = none := by
    intro passage hpassage
    obtain ⟨i, criterion, -, hcriterion, hopener⟩ := mem_plannedFrom (opener_mem (h ▸ hpassage))
    unfold Passage.after?
    rw [hopener]
    exact (hplain criterion hcriterion).around i
  refine ⟨lead_of_head? hp (by rw [h]; rfl), fun passage hpassage => ?_⟩
  obtain ⟨front, back, hsplit⟩ := List.append_of_mem hpassage
  obtain ⟨hbefore, -⟩ := haround passage (List.mem_cons_of_mem _ hpassage)
  -- Some passage stands right before this one, be it the first.
  rcases List.eq_nil_or_concat front with rfl | ⟨front, previous, rfl⟩
  · have houtline : outline (planned policy criteria) = [] ++ first :: passage :: back := by
      rw [h, hsplit]
      rfl
    have hlead := lead_of_neighbour hp houtline
    rw [hbefore, (haround first List.mem_cons_self).2] at hlead
    exact hlead
  · have hprevious : previous ∈ first :: others := by
      rw [hsplit]
      simp
    have houtline : outline (planned policy criteria)
        = (first :: front) ++ previous :: passage :: back := by
      rw [h, hsplit]
      simp
    have hlead := lead_of_neighbour hp houtline
    rw [hbefore, (haround previous hprevious).2] at hlead
    exact hlead

/-- A clause without texts around groups is its first passage and a row of the others. -/
theorem Where.sql_eq_row (hne : criteria ≠ []) (hplain : ∀ criterion ∈ criteria, criterion.Plain) :
    ∃ first others, outline (planned policy criteria) = first :: others ∧
      (ofPlans (planned policy criteria)).sql
        = " WHERE " ++ (first.core ++ row (·.opener.connective) Passage.core others) := by
  obtain ⟨first, others, houtline⟩ :=
    List.exists_cons_of_ne_nil (outline_planned_ne_nil hne)
  refine ⟨first, others, houtline, ?_⟩
  obtain ⟨hfirst, hothers⟩ := lead_of_plain hplain houtline
  have hafter : ∀ passage ∈ first :: others, passage.after? = none := by
    intro passage hpassage
    obtain ⟨i, criterion, -, hcriterion, hopener⟩ :=
      mem_plannedFrom (opener_mem (houtline ▸ hpassage))
    unfold Passage.after?
    rw [hopener]
    exact ((hplain criterion hcriterion).around i).2
  have hsql : (ofPlans (planned policy criteria)).sql = outlineClause (planned policy criteria) :=
    Layout.clause_ofPlans hne
  have htext : first.text = first.core := by
    rw [Passage.text, hfirst, hafter first List.mem_cons_self]
    simp only [Block.leadText, Block.afterText, String.empty_append, String.append_empty]
  have htexts : others.map ((" " ++ ·) ∘ Passage.text)
      = others.map fun passage => " " ++ passage.opener.connective.sql ++ " " ++ passage.core := by
    refine List.map_congr_left fun passage hpassage => ?_
    rw [Function.comp_apply, Passage.text, hothers passage hpassage,
      hafter passage (List.mem_cons_of_mem _ hpassage)]
    simp only [Block.leadText, Block.afterText, String.append_empty, String.append_assoc]
  rw [hsql, outlineClause, houtline, List.map_cons, intercalate_blank_cons, List.map_map, htext,
    htexts]
  rfl

end

/-- Rows of passages tell the figures of their passages. -/
theorem figures_of_rows {plans plans' : List Plan} {first first' : Passage}
    {others others' : List Passage} (houtline : outline plans = first :: others)
    (houtline' : outline plans' = first' :: others')
    (hreadable : ∀ passage ∈ first :: others, passage.Readable)
    (hreadable' : ∀ passage ∈ first' :: others', passage.Readable)
    (hlead : first.lead = none ∧
      ∀ passage ∈ others, passage.lead = some passage.opener.connective.sql)
    (hlead' : first'.lead = none ∧
      ∀ passage ∈ others', passage.lead = some passage.opener.connective.sql)
    (hsame : first.core ++ row (·.opener.connective) Passage.core others
      = first'.core ++ row (·.opener.connective) Passage.core others') :
    (outline plans).map Passage.figure = (outline plans').map Passage.figure := by
  obtain ⟨hfirst, hothers⟩ := List.forall_mem_cons.mp hreadable
  obtain ⟨hfirst', hothers'⟩ := List.forall_mem_cons.mp hreadable'
  have hend : EndsRow [] := nofun
  have hchars := congrArg String.toList hsame
  rw [String.toList_append, String.toList_append, ← List.append_nil (row _ _ others).toList,
    ← List.append_nil (row _ _ others').toList] at hchars
  obtain ⟨hcontent, hrows⟩ := legible_core hfirst hfirst' (hend.fenced_row _ _ _)
    (hend.fenced_row _ _ _) hchars
  obtain ⟨hpairs, -⟩ :=
    legible_core.row (·.opener.connective) hothers hothers' hend hend hrows
  -- The lead of a passage is spelled by the connective that the row tells.
  have hfigures : ∀ {passages : List Passage},
      (∀ passage ∈ passages, passage.lead = some passage.opener.connective.sql) →
      passages.map Passage.figure
        = (passages.map fun passage => (passage.opener.connective, passage.content)).map
            fun pair => ⟨some pair.1.sql, pair.2⟩ := by
    intro passages hlead
    rw [List.map_map]
    refine List.map_congr_left fun passage hpassage => ?_
    rw [Passage.figure, hlead passage hpassage]
    rfl
  rw [houtline, houtline', List.map_cons, List.map_cons, hfigures hlead.2, hfigures hlead'.2,
    hpairs, Passage.figure, Passage.figure, hlead.1, hlead'.1, hcontent]

/-- **From the text of a clause one can tell its passages.** Two lists that compile to one
text, be it under different policies, have the same row of passages: each the same lead,
both plain or both groups, with the same connectives inside, and condition by condition
the same column, comparison and placeholders. Columns are of plain characters, and no
text is written around a group. -/
theorem Where.sql_determines_figures {policy policy' : Policy} {criteria criteria' : List Criterion}
    {clause clause' : Where} (h : compile policy criteria = .ok clause)
    (h' : compile policy' criteria' = .ok clause')
    (hplain : ∀ criterion ∈ criteria, criterion.Plain)
    (hplain' : ∀ criterion ∈ criteria', criterion.Plain) (hsql : clause.sql = clause'.sql) :
    (outline (planned policy criteria)).map Passage.figure
      = (outline (planned policy' criteria')).map Passage.figure := by
  have hnonempty : ∀ text : String, " WHERE " ++ text ≠ "" := by
    intro text hempty
    have hlength := congrArg String.length hempty
    rw [String.length_append] at hlength
    exact absurd hlength (by simp)
  by_cases hne : criteria = []
  · subst hne
    cases h
    by_cases hne' : criteria' = []
    · subst hne'
      rfl
    · obtain ⟨first', others', -, hrow'⟩ := sql_eq_row hne' hplain'
      rw [((compile_eq_ok_iff hne').mp h').2, hrow'] at hsql
      exact absurd hsql.symm (hnonempty _)
  · obtain ⟨haccepted, rfl⟩ := (compile_eq_ok_iff hne).mp h
    obtain ⟨first, others, houtline, hrow⟩ := sql_eq_row hne hplain
    rw [hrow] at hsql
    by_cases hne' : criteria' = []
    · subst hne'
      cases h'
      exact absurd hsql (hnonempty _)
    · obtain ⟨haccepted', rfl⟩ := (compile_eq_ok_iff hne').mp h'
      obtain ⟨first', others', houtline', hrow'⟩ := sql_eq_row hne' hplain'
      rw [hrow'] at hsql
      refine figures_of_rows houtline houtline' ?_ ?_ (lead_of_plain hplain houtline)
        (lead_of_plain hplain' houtline') ?_
      · exact fun passage hpassage =>
          Passage.readable_of_mem haccepted hplain (houtline ▸ hpassage)
      · exact fun passage hpassage =>
          Passage.readable_of_mem haccepted' hplain' (houtline' ▸ hpassage)
      · have hchars := congrArg String.toList hsql
        simp only [String.toList_append] at hchars
        refine String.toList_inj.mp ?_
        simp only [String.toList_append]
        exact List.append_cancel_left hchars

/-- Conditions on columns that are spelled like words of the grammar. -/
def keywords (comparison : Option Comparison) (connective : Option Connective)
    (value : Value) : List Criterion :=
  [ { column := "NOT", comparison, value := some value },
    { Criterion.isNotNull "IS" with connective },
    { Criterion.isIn "NULL" [value, value] with
      connective := some .xor, grouping := some { key := "g" } },
    { Criterion.isNull "AND" with connective, grouping := some { key := "g" } } ]

/-- Columns named after the keywords of a clause are plain. -/
theorem keywords_plain (comparison : Option Comparison) (connective : Option Connective)
    (value : Value) : ∀ criterion ∈ keywords comparison connective value, criterion.Plain := by
  have hcolumn : ∀ column ∈ ["NOT", "IS", "NULL", "AND"],
      ∀ c ∈ column.toList, isColumnChar c = true := by
    intro column hcolumn
    refine List.all_eq_true.mp ?_
    revert column
    decide
  intro criterion hmem
  simp only [keywords, List.mem_cons, List.not_mem_nil, or_false] at hmem
  rcases hmem with rfl | rfl | rfl | rfl
  · exact ⟨hcolumn _ (by simp), nofun, nofun⟩
  · exact ⟨hcolumn _ (by simp [Criterion.isNotNull]), nofun, nofun⟩
  · exact ⟨hcolumn _ (by simp [Criterion.isIn]), by rintro _ ⟨⟩; rfl, by rintro _ ⟨⟩; rfl⟩
  · exact ⟨hcolumn _ (by simp [Criterion.isNull]), by rintro _ ⟨⟩; rfl, by rintro _ ⟨⟩; rfl⟩

/-- What is left to a policy and what is said outright are read alike. -/
theorem Where.sql_determines_figures_keywords :
    let policy : Policy := { comparison := .isNot, connective := .not }
    let said := keywords (some .isNot) (some .not) (.int 1)
    let unsaid := keywords none none (.text "one")
    let sql := " WHERE NOT IS NOT :NOT1 NOT IS IS NOT NULL "
      ++ "XOR (NULL IN (:NULL30,:NULL31) NOT AND IS NULL)"
    ∃ clause clause', compile {} said = .ok clause ∧ compile policy unsaid = .ok clause' ∧
      clause.sql = sql ∧ clause'.sql = sql ∧
      (outline (planned {} said)).map Passage.figure
        = (outline (planned policy unsaid)).map Passage.figure := by
  intro policy said unsaid sql
  obtain ⟨clause, hclause, hsql⟩ : ∃ clause, compile {} said = .ok clause ∧ clause.sql = sql :=
    ⟨_, rfl, by decide +kernel⟩
  obtain ⟨clause', hclause', hsql'⟩ :
      ∃ clause', compile policy unsaid = .ok clause' ∧ clause'.sql = sql :=
    ⟨_, rfl, by decide +kernel⟩
  exact ⟨clause, clause', hclause, hclause', hsql, hsql',
    sql_determines_figures hclause hclause' (keywords_plain _ _ _) (keywords_plain _ _ _)
      (hsql.trans hsql'.symm)⟩

end BoundSql
