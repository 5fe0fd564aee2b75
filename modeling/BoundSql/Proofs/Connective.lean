import BoundSql.Proofs.Rendering

/-!
# The texts between neighbouring blocks

Seen from outside, the text after WHERE is a row of plain conditions and
parenthesised groups with connectives between them. `Passage.tokens` takes it
apart like that:

> `sql_eq_tokens`: the clause is the tokens of its passages, joined by single
> blanks.

The text between two neighbours is what the first leaves behind together with
what leads into the second. That is one text in every case but one.

> `length_between`: a group that brings a text after it and a group that brings
> a text before it do not know of each other. Everywhere else there is exactly
> one text.

The texts at the ends come to the same: nothing leads into the first passage,
while a group that is last keeps the text after it.
-/

namespace BoundSql

namespace Passage

/-- What leads into the passage, its core, and what comes after it. -/
def tokens (passage : Passage) : List String :=
  passage.lead.toList ++ passage.core :: passage.after?.toList

/-- The connective texts between two neighbours. -/
def between (passage next : Passage) : List String :=
  passage.after?.toList ++ next.lead.toList

/-- Both neighbours bring a text of their own: one after it, the other before it. -/
def Clash (passage next : Passage) : Prop :=
  passage.after?.isSome ∧ next.opener.before?.isSome

instance (passage next : Passage) : Decidable (passage.Clash next) :=
  inferInstanceAs (Decidable (_ ∧ _))

theorem tokens_ne_nil (passage : Passage) : passage.tokens ≠ [] := by
  intro h
  have hnil := (List.append_eq_nil_iff.mp h).2
  exact List.cons_ne_nil _ _ hnil

/-- The text of a passage is its tokens, joined by single blanks. -/
theorem text_eq_tokens (passage : Passage) : passage.text = " ".intercalate passage.tokens := by
  unfold text tokens
  cases passage.lead with
  | none => cases passage.after? <;> simp [Block.leadText, Block.afterText, String.append_assoc]
  | some lead =>
    cases passage.after? <;> simp [Block.leadText, Block.afterText, String.append_assoc]

end Passage

/-- Joining rows of texts, each of them joined before, is joining all the texts. -/
theorem intercalate_map_intercalate (separator : String) :
    ∀ {rows : List (List String)}, (∀ row ∈ rows, row ≠ []) →
      separator.intercalate (rows.map separator.intercalate)
        = separator.intercalate rows.flatten := by
  intro rows
  induction rows with
  | nil => intro _; rfl
  | cons row rest ih =>
    intro hrows
    obtain ⟨hrow, hrest⟩ := List.forall_mem_cons.mp hrows
    cases rest with
    | nil => rw [List.map_singleton, String.intercalate_singleton, List.flatten_singleton]
    | cons next rest =>
      have hne : (next :: rest).flatten ≠ [] := by
        intro hnil
        exact hrest next List.mem_cons_self
          (List.flatten_eq_nil_iff.mp hnil next List.mem_cons_self)
      have hflatten : (row :: next :: rest).flatten = row ++ (next :: rest).flatten := rfl
      rw [List.map_cons, String.intercalate_cons_of_ne_nil (by simp), ih hrest, hflatten,
        String.intercalate_append_of_ne_nil hrow hne]

/-- A clause is the tokens of its passages. -/
theorem sql_eq_tokens {policy : Policy} {criteria : List Criterion} (hne : criteria ≠ []) :
    (Where.ofPlans (planned policy criteria)).sql
      = " WHERE " ++ " ".intercalate
          ((outline (planned policy criteria)).flatMap Passage.tokens) := by
  have htexts : (outline (planned policy criteria)).map Passage.text
      = ((outline (planned policy criteria)).map Passage.tokens).map " ".intercalate := by
    rw [List.map_map]
    exact List.map_congr_left fun passage _ => passage.text_eq_tokens
  show (Layout.ofPlans (planned policy criteria)).clause = _
  rw [Layout.clause_ofPlans hne, outlineClause, htexts, intercalate_map_intercalate]
  · rfl
  · intro row hrow
    obtain ⟨passage, -, rfl⟩ := List.mem_map.mp hrow
    exact passage.tokens_ne_nil

/-! ## What leads into a passage -/

/-- Nothing leads into the first passage. -/
theorem lead_of_head? {plans : List Plan} (h : Positioned plans) {passage : Passage}
    (hfirst : (outline plans).head? = some passage) : passage.lead = none := by
  cases plans with
  | nil => cases hfirst
  | cons first rest =>
    have hposition : first.position = 1 := by
      unfold Positioned at h
      rw [List.map_cons, List.length_cons, List.range'_succ] at h
      exact (List.cons.inj h).1
    -- The first criterion opens a passage, as nothing stands before it.
    have hopens : opens (first :: rest) first = true := by
      refine List.all_eq_true.mpr fun other hother => ?_
      have hmem : other.position ∈ (first :: rest).map Plan.position :=
        List.mem_map.mpr ⟨other, hother, rfl⟩
      rw [h, List.mem_range'_1] at hmem
      rw [Bool.or_eq_true, decide_eq_true_eq, decide_eq_true_eq]
      right
      omega
    rw [outline, openers, List.filter_cons_of_pos hopens, passagesFrom, List.head?_cons,
      Option.some.injEq] at hfirst
    rw [← hfirst]
    show leadInto none first = none
    rw [leadInto, if_pos hposition]

section Neighbours

variable {plans : List Plan} {front back : List Passage} {passage next : Passage}

/-- What leads into a passage that has one before it. -/
theorem lead_of_neighbour (h : Positioned plans)
    (hsplit : outline plans = front ++ passage :: next :: back) :
    next.lead
      = match next.opener.before?, passage.after? with
        | some before, _ => some before
        | none, some _ => none
        | none, none => some next.opener.connective.sql := by
  have houtline := isOutline_outline h
  -- The opener before it stands further in front, so this is not the first criterion.
  have hposition : next.opener.position ≠ 1 := by
    have hordered := houtline.ordered
    rw [hsplit, List.map_append, List.pairwise_append, List.map_cons, List.map_cons,
      List.pairwise_cons] at hordered
    have hlt := hordered.2.1.1 next.opener.position List.mem_cons_self
    have hmem : passage.opener ∈ plans := by
      refine opener_mem ?_
      rw [hsplit]
      exact List.mem_append_right _ List.mem_cons_self
    have hpos : passage.opener.position ∈ plans.map Plan.position :=
      List.mem_map.mpr ⟨passage.opener, hmem, rfl⟩
    rw [h, List.mem_range'_1] at hpos
    omega
  have hlead := houtline.leads (front ++ [passage]) next back
    (by rw [hsplit, List.append_assoc]; rfl)
  rw [List.getLast?_concat, leadInto, if_neg hposition] at hlead
  exact hlead

/-- Exactly one text stands between two neighbours, unless both bring one. -/
theorem length_between (h : Positioned plans)
    (hsplit : outline plans = front ++ passage :: next :: back) (hclash : ¬ passage.Clash next) :
    (passage.between next).length = 1 := by
  unfold Passage.between
  rw [lead_of_neighbour h hsplit]
  unfold Passage.Clash at hclash
  cases hbefore : next.opener.before? with
  | some before =>
    cases hafter : passage.after? with
    | some after =>
      rw [hbefore, hafter] at hclash
      exact absurd ⟨rfl, rfl⟩ hclash
    | none => rfl
  | none => cases passage.after? <;> rfl

/-- A passage that brings a text after it settles what leads into the next one, unless
that brings a text before it. -/
theorem lead_of_after (h : Positioned plans)
    (hsplit : outline plans = front ++ passage :: next :: back)
    (hafter : passage.after?.isSome) (hclash : ¬ passage.Clash next) : next.lead = none := by
  obtain ⟨after, hafter⟩ := Option.isSome_iff_exists.mp hafter
  rw [lead_of_neighbour h hsplit, hafter]
  cases hbefore : next.opener.before? with
  | some before =>
    refine absurd ⟨?_, ?_⟩ hclash
    · rw [hafter]
      rfl
    · rw [hbefore]
      rfl
  | none => rfl

end Neighbours

/-- What comes after a passage is the text of a group. -/
theorem Passage.grouping_of_after? {passage : Passage} {after : String}
    (h : passage.after? = some after) :
    ∃ grouping, passage.opener.criterion.grouping = some grouping ∧
      Text.nonBlank? grouping.after = some after :=
  Option.bind_eq_some_iff.mp h

/-- **One connective between neighbours.** Nothing leads into the first passage, and the
last one leaves nothing behind but the text after its own group. Between two neighbours
there is one text unless both of them bring one. A text after a group is the only one
there, unless the next passage is a group with a text before it. -/
theorem Where.one_connective {policy : Policy} {criteria : List Criterion} {clause : Where}
    (h : compile policy criteria = .ok clause) :
    IsOutline (planned policy criteria) (outline (planned policy criteria)) ∧
      (criteria = [] → clause.sql = "") ∧
      (criteria ≠ [] → clause.sql = " WHERE " ++ " ".intercalate
        ((outline (planned policy criteria)).flatMap Passage.tokens)) ∧
      (∀ passage, (outline (planned policy criteria)).head? = some passage →
        passage.lead = none) ∧
      (∀ passage, (outline (planned policy criteria)).getLast? = some passage →
        ∀ after, passage.after? = some after →
          ∃ grouping, passage.opener.criterion.grouping = some grouping ∧
            Text.nonBlank? grouping.after = some after) ∧
      ∀ front passage next back,
        outline (planned policy criteria) = front ++ passage :: next :: back →
          ¬ passage.Clash next →
            (passage.between next).length = 1 ∧
              (passage.after?.isSome → next.lead = none) := by
  have hp := positioned_planned policy criteria
  refine ⟨isOutline_outline hp, ?_, ?_, ?_, ?_, ?_⟩
  · intro hnil
    rw [hnil, compile_nil] at h
    cases h
    rfl
  · intro hne
    obtain ⟨-, hclause⟩ := (compile_eq_ok_iff hne).mp h
    rw [hclause]
    exact sql_eq_tokens hne
  · intro passage hfirst
    exact lead_of_head? hp hfirst
  · intro passage _ after hafter
    exact Passage.grouping_of_after? hafter
  · intro front passage next back hsplit hclash
    exact ⟨length_between hp hsplit hclash, fun hafter => lead_of_after hp hsplit hafter hclash⟩

theorem Where.one_connective_interleaved :
    ∃ clause, compile {} interleaved = .ok clause ∧
      clause.sql = " WHERE " ++ " ".intercalate
        ((outline (planned {} interleaved)).flatMap Passage.tokens) ∧
      ∀ front passage next back,
        outline (planned {} interleaved) = front ++ passage :: next :: back →
          ¬ passage.Clash next →
            (passage.between next).length = 1 ∧
              (passage.after?.isSome → next.lead = none) := by
  have hcompile : compile {} interleaved = .ok (ofPlans (planned {} interleaved)) := by rfl
  obtain ⟨-, -, hsql, -, -, hbetween⟩ := one_connective hcompile
  exact ⟨_, hcompile, hsql (by simp [interleaved]), hbetween⟩

/-- Two groups with texts on either side. -/
def crossed : List Criterion :=
  [ { Criterion.equals "a" (.int 1) with grouping := some { key := "g", after := some "OR" } },
    { Criterion.equals "b" (.int 2) with
      grouping := some { key := "h", before := some "AND", after := some "XOR" } } ]

/-- The text after the last group stays where it is, and two texts stand between groups
that both bring one. -/
theorem Where.two_connectives :
    compile {} crossed = .ok
        ⟨" WHERE (a = :a1) OR AND (b = :b2) XOR", (planned {} crossed).flatMap Plan.slots⟩ ∧
      ¬ (∀ passage, (outline (planned {} crossed)).getLast? = some passage →
        passage.after? = none) ∧
      ¬ (∀ front passage next back,
        outline (planned {} crossed) = front ++ passage :: next :: back →
          (passage.between next).length = 1) := by
  refine ⟨by rfl, ?_, ?_⟩
  · intro hnone
    have hlast := hnone _ rfl
    revert hlast
    decide
  · intro hone
    have hlength := hone [] _ _ [] rfl
    revert hlength
    decide

end BoundSql
