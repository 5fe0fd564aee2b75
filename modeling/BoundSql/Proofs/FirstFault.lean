import BoundSql.Proofs.Collision
import Mathlib.Data.List.Induction

/-!
# The first fault of a criteria list

A criterion is at fault in one of two ways: it does not pass the checks, or one
of its names is that of an earlier criterion or of an earlier value of its own.
Both are looked for in one walk over the list, criterion by criterion, so the
earliest criterion at fault decides, whichever way it is, and nothing that
comes after it is ever seen.

That walk is `planFrom`. What it takes along are the names so far, and of these
only which they are counts:

> `planFrom_append`: criteria without a fault leave nothing to the rest of the
> list but their names and their number.

Everything that takes criteria plans them before it does anything else with
them, so all of it is refused alike:

> `first_fault_everywhere`: a list without a fault is planned, compiled and
> bound. Any other is refused by whatever takes it for the one fault of the first
> criterion that has one.
-/

namespace BoundSql

/-! ## The first name that repeats -/

/-- One of some names is taken, or stands among those before it. -/
def Repeats (taken names : List String) : Prop :=
  ∃ before name after, names = before ++ name :: after ∧ (name ∈ taken ∨ name ∈ before)

/-- The first of some names that repeats: of those before it none does. -/
def FirstRepeat (taken names : List String) (name : String) : Prop :=
  ∃ before after, names = before ++ name :: after ∧ (name ∈ taken ∨ name ∈ before) ∧
    ¬ Repeats taken before

theorem not_repeats_nil (taken : List String) : ¬ Repeats taken [] := by
  intro h
  obtain ⟨before, name, after, hsplit, -⟩ := h
  cases before <;> cases hsplit

/-- The first name is taken, or one of the others is once that name is taken as well. -/
theorem repeats_cons_iff {taken rest : List String} {name : String} :
    Repeats taken (name :: rest) ↔ name ∈ taken ∨ Repeats (name :: taken) rest := by
  constructor
  · intro h
    obtain ⟨before, other, after, hsplit, hrepeat⟩ := h
    cases before with
    | nil =>
      obtain ⟨rfl, rfl⟩ := List.cons.inj hsplit
      exact Or.inl (hrepeat.resolve_right List.not_mem_nil)
    | cons first before =>
      obtain ⟨rfl, rfl⟩ := List.cons.inj hsplit
      refine Or.inr ⟨before, other, after, rfl, ?_⟩
      rcases hrepeat with htaken | hbefore
      · exact Or.inl (List.mem_cons_of_mem _ htaken)
      · rcases List.mem_cons.mp hbefore with hfirst | hbefore
        · exact Or.inl (List.mem_cons.mpr (Or.inl hfirst))
        · exact Or.inr hbefore
  · intro h
    rcases h with htaken | ⟨before, other, after, rfl, hrepeat⟩
    · exact ⟨[], name, rest, rfl, Or.inl htaken⟩
    · refine ⟨name :: before, other, after, rfl, ?_⟩
      rcases hrepeat with htaken | hbefore
      · rcases List.mem_cons.mp htaken with hname | htaken
        · exact Or.inr (List.mem_cons.mpr (Or.inl hname))
        · exact Or.inl htaken
      · exact Or.inr (List.mem_cons_of_mem _ hbefore)

/-- The scan finds no name that is taken exactly if none repeats. -/
theorem firstTaken?_eq_none_iff_not_repeats {taken names : List String} :
    firstTaken? taken names = none ↔ ¬ Repeats taken names := by
  induction names generalizing taken with
  | nil => exact ⟨fun _ => not_repeats_nil taken, fun _ => rfl⟩
  | cons name rest ih =>
    rw [repeats_cons_iff, firstTaken?]
    by_cases h : name ∈ taken
    · simp [h]
    · simp [h, ih]

/-- The search for a name that is taken ends at the first that repeats. -/
theorem firstTaken?_eq_some_iff {taken names : List String} {name : String} :
    firstTaken? taken names = some name ↔ FirstRepeat taken names name := by
  induction names generalizing taken with
  | nil =>
    constructor
    · intro h
      cases h
    · intro h
      obtain ⟨before, after, hsplit, -⟩ := h
      cases before <;> cases hsplit
  | cons first rest ih =>
    rw [firstTaken?]
    by_cases htaken : first ∈ taken
    · rw [if_pos htaken, Option.some.injEq]
      constructor
      · rintro rfl
        exact ⟨[], rest, rfl, Or.inl htaken, not_repeats_nil taken⟩
      · intro h
        obtain ⟨before, after, hsplit, -, hbefore⟩ := h
        cases before with
        | nil => exact (List.cons.inj hsplit).1
        | cons other before =>
          obtain ⟨rfl, -⟩ := List.cons.inj hsplit
          exact absurd (repeats_cons_iff.mpr (Or.inl htaken)) hbefore
    -- The head is free, so it only counts as one more name that is taken by the others.
    · rw [if_neg htaken, ih]
      constructor
      · intro h
        obtain ⟨before, after, rfl, hrepeat, hbefore⟩ := h
        refine ⟨first :: before, after, rfl, ?_, ?_⟩
        · rw [List.mem_cons] at hrepeat ⊢
          tauto
        · rw [repeats_cons_iff]
          exact fun h => h.elim htaken hbefore
      · intro h
        obtain ⟨before, after, hsplit, hrepeat, hbefore⟩ := h
        cases before with
        | nil =>
          obtain ⟨rfl, -⟩ := List.cons.inj hsplit
          exact absurd (hrepeat.resolve_right List.not_mem_nil) htaken
        | cons other before =>
          obtain ⟨rfl, rfl⟩ := List.cons.inj hsplit
          rw [repeats_cons_iff, not_or] at hbefore
          refine ⟨before, after, rfl, ?_, hbefore.2⟩
          rw [List.mem_cons] at hrepeat ⊢
          tauto

/-- Only which names are taken counts. -/
theorem firstTaken?_congr {taken taken' : List String}
    (h : ∀ name, name ∈ taken ↔ name ∈ taken') (names : List String) :
    firstTaken? taken names = firstTaken? taken' names := by
  induction names generalizing taken taken' with
  | nil => rfl
  | cons first rest ih =>
    rw [firstTaken?, firstTaken?]
    by_cases htaken : first ∈ taken
    · rw [if_pos htaken, if_pos ((h first).mp htaken)]
    · rw [if_neg htaken, if_neg (mt (h first).mpr htaken)]
      refine ih fun name => ?_
      rw [List.mem_cons, List.mem_cons, h]

/-! ## Criteria at fault -/

/-- The names of all criteria of a list. -/
def namesOf (policy : Policy) (criteria : List Criterion) : List String :=
  (planned policy criteria).flatMap Plan.names

/-- The names of a criterion that comes after others. -/
def namesAfter (policy : Policy) (front : List Criterion) (criterion : Criterion) :
    List String :=
  (criterion.planned policy (front.length + 1)).names

/-- A criterion that comes after others does not pass the checks, or one of its names is
that of an earlier criterion or of an earlier value of its own. -/
def AtFault (policy : Policy) (front : List Criterion) (criterion : Criterion) : Prop :=
  (∃ fault, criterion.check policy = .error fault) ∨
    Repeats (namesOf policy front) (namesAfter policy front criterion)

/-- No criterion of a list is at fault. -/
def Faultless (policy : Policy) (criteria : List Criterion) : Prop :=
  ∀ front criterion back, criteria = front ++ criterion :: back → ¬ AtFault policy front criterion

/-- The fault of a criterion that comes after others, with its position: what the checks
find, and if they find nothing the first of its names that repeats. -/
inductive FaultOf (policy : Policy) (front : List Criterion) (criterion : Criterion) :
    Fault → Prop where
  | check {fault : Fault} (refused : criterion.check policy = .error fault) :
    FaultOf policy front criterion (fault.atPosition (front.length + 1))
  | collision {name : String} (passed : criterion.check policy = .ok ())
    (first : FirstRepeat (namesOf policy front) (namesAfter policy front criterion) name) :
    FaultOf policy front criterion
      ((Fault.of (.placeholderCollision name)).atPosition (front.length + 1))

/-- The fault of a criterion after others, as it is looked for. -/
def faultOf? (policy : Policy) (front : List Criterion) (criterion : Criterion) : Option Fault :=
  match criterion.cause? policy with
  | some cause => some ((Fault.of cause).atPosition (front.length + 1))
  | none =>
    (firstTaken? (namesOf policy front) (namesAfter policy front criterion)).map fun name =>
      (Fault.of (.placeholderCollision name)).atPosition (front.length + 1)

section

variable {policy : Policy} {front criteria : List Criterion} {criterion : Criterion}

/-- The fault of a criterion, computed. -/
theorem faultOf?_eq_some_iff {fault : Fault} :
    faultOf? policy front criterion = some fault ↔ FaultOf policy front criterion fault := by
  unfold faultOf?
  cases hcause : criterion.cause? policy with
  | some cause =>
    have hcheck : criterion.check policy = .error (.of cause) := by
      rw [Criterion.check, hcause]
    constructor
    · intro h
      cases h
      exact .check hcheck
    · intro h
      cases h with
      | check refused =>
        rw [hcheck] at refused
        cases refused
        rfl
      | collision passed _ =>
        rw [hcheck] at passed
        cases passed
  | none =>
    have hcheck := Criterion.check_eq_ok_iff.mpr hcause
    rw [Option.map_eq_some_iff]
    constructor
    · intro h
      obtain ⟨name, hname, rfl⟩ := h
      exact .collision hcheck (firstTaken?_eq_some_iff.mp hname)
    · intro h
      cases h with
      | check refused =>
        rw [hcheck] at refused
        cases refused
      | collision _ first => exact ⟨_, firstTaken?_eq_some_iff.mpr first, rfl⟩

/-- A criterion is not at fault exactly when no fault of it is found. -/
theorem faultOf?_eq_none_iff :
    faultOf? policy front criterion = none ↔ ¬ AtFault policy front criterion := by
  unfold faultOf? AtFault
  cases hcause : criterion.cause? policy with
  | some cause =>
    have hcheck : criterion.check policy = .error (.of cause) := by
      rw [Criterion.check, hcause]
    exact iff_of_false nofun fun h => h (Or.inl ⟨_, hcheck⟩)
  | none =>
    have hcheck := Criterion.check_eq_ok_iff.mpr hcause
    have hpassed : ¬ ∃ fault, criterion.check policy = .error fault := by
      rintro ⟨fault, hrefused⟩
      rw [hcheck] at hrefused
      cases hrefused
    rw [Option.map_eq_none_iff, firstTaken?_eq_none_iff_not_repeats, not_or, and_iff_right hpassed]

/-- A criterion at fault has one fault. -/
theorem existsUnique_faultOf (h : AtFault policy front criterion) :
    ∃! fault, FaultOf policy front criterion fault := by
  cases hfault : faultOf? policy front criterion with
  | none => exact absurd h (faultOf?_eq_none_iff.mp hfault)
  | some fault =>
    refine ⟨fault, faultOf?_eq_some_iff.mp hfault, fun other hother => ?_⟩
    have hsome := faultOf?_eq_some_iff.mpr hother
    rw [hfault, Option.some.injEq] at hsome
    exact hsome.symm

/-! ## Faultless lists -/

/-- Plans of a list in two parts are made part by part. -/
theorem plannedFrom_append (policy : Policy) : ∀ (front back : List Criterion) (position : Nat),
    plannedFrom policy position (front ++ back)
      = plannedFrom policy position front
        ++ plannedFrom policy (position + front.length) back := by
  intro front
  induction front with
  | nil => intro back position; rfl
  | cons criterion rest ih =>
    intro back position
    rw [List.cons_append, plannedFrom, ih, plannedFrom, List.cons_append, List.length_cons,
      Nat.add_right_comm, Nat.add_assoc]

/-- One more criterion adds its names at the end. -/
theorem namesOf_concat (policy : Policy) (front : List Criterion) (criterion : Criterion) :
    namesOf policy (front ++ [criterion])
      = namesOf policy front ++ namesAfter policy front criterion := by
  unfold namesOf planned namesAfter
  rw [plannedFrom_append, List.flatMap_append, Nat.add_comm]
  simp only [plannedFrom, List.flatMap_singleton]

/-- The last criterion is one more that may be at fault. -/
theorem faultless_concat_iff :
    Faultless policy (front ++ [criterion]) ↔
      Faultless policy front ∧ ¬ AtFault policy front criterion := by
  constructor
  · intro h
    refine ⟨fun front' other back hsplit => ?_, h front criterion [] rfl⟩
    refine h front' other (back ++ [criterion]) ?_
    rw [hsplit, List.append_assoc, List.cons_append]
  · intro h front' other back hsplit
    obtain ⟨hfront, hlast⟩ := h
    rcases List.eq_nil_or_concat back with rfl | ⟨back, last, rfl⟩
    · obtain ⟨rfl, hother⟩ := List.append_inj' hsplit rfl
      exact (List.cons.inj hother).1 ▸ hlast
    · rw [List.concat_eq_append, ← List.cons_append, ← List.append_assoc] at hsplit
      exact hfront front' other back (List.append_inj' hsplit rfl).1

/-- A criterion is not at fault if it passes the checks and brings new names. -/
theorem not_atFault_iff :
    ¬ AtFault policy front criterion ↔
      criterion.cause? policy = none ∧ (namesAfter policy front criterion).Nodup ∧
        ∀ name ∈ namesAfter policy front criterion, name ∉ namesOf policy front := by
  rw [← faultOf?_eq_none_iff, ← firstTaken?_eq_none_iff]
  unfold faultOf?
  cases criterion.cause? policy <;> simp

/-- The lists without a fault are the accepted ones. -/
theorem faultless_iff_accepted : Faultless policy criteria ↔ Accepted policy criteria := by
  induction criteria using List.reverseRecOn with
  | nil =>
    refine ⟨fun _ => ⟨fun _ hmem => (List.not_mem_nil hmem).elim, List.nodup_nil⟩, fun _ => ?_⟩
    intro front criterion back hsplit
    cases front <;> cases hsplit
  | append_singleton front criterion ih =>
    -- Both sides grow at the end: the last criterion adds its check and its names.
    rw [faultless_concat_iff, ih, not_atFault_iff]
    have hnames := namesOf_concat policy front criterion
    constructor
    · intro h
      obtain ⟨⟨hchecks, hnodup⟩, hcause, hown, hnew⟩ := h
      refine ⟨fun other hother => ?_, ?_⟩
      · rcases List.mem_append.mp hother with hother | hother
        · exact hchecks other hother
        · exact List.mem_singleton.mp hother ▸ hcause
      · show (namesOf policy (front ++ [criterion])).Nodup
        rw [hnames]
        refine List.nodup_append.mpr ⟨hnodup, hown, ?_⟩
        rintro name hname other hother rfl
        exact hnew name hother hname
    · intro h
      obtain ⟨hchecks, hnodup⟩ := h
      change (namesOf policy (front ++ [criterion])).Nodup at hnodup
      rw [hnames] at hnodup
      obtain ⟨hfront, hown, hapart⟩ := List.nodup_append.mp hnodup
      refine ⟨⟨fun other hother => hchecks other (List.mem_append_left _ hother), hfront⟩,
        hchecks criterion (List.mem_append_right _ List.mem_cons_self), hown, ?_⟩
      exact fun name hname htaken => hapart name htaken name hname rfl

/-- A list that is not faultless has a first criterion at fault. -/
theorem exists_first_fault (h : ¬ Faultless policy criteria) :
    ∃ front criterion back, criteria = front ++ criterion :: back ∧
      Faultless policy front ∧ AtFault policy front criterion := by
  induction criteria using List.reverseRecOn with
  | nil =>
    refine absurd (fun front criterion back hsplit => ?_) h
    cases front <;> cases hsplit
  | append_singleton front criterion ih =>
    -- The induction takes off the last criterion, so a fault in front of it is found first.
    by_cases hfront : Faultless policy front
    · refine ⟨front, criterion, [], rfl, hfront, ?_⟩
      by_contra hlast
      exact h (faultless_concat_iff.mpr ⟨hfront, hlast⟩)
    · obtain ⟨front', other, back, rfl, hfirst⟩ := ih hfront
      exact ⟨front', other, back ++ [criterion], by rw [List.append_assoc, List.cons_append],
        hfirst⟩

end

/-! ## Planning -/

/-- **Planning goes on** after criteria that are accepted with no more than their number
and their names, of which only which they are counts. -/
theorem planFrom_append {policy : Policy} : ∀ {front : List Criterion} {position : Nat}
    {taken : List String}, (∀ criterion ∈ front, criterion.cause? policy = none) →
      ((plannedFrom policy position front).flatMap Plan.names).Nodup →
      (∀ name ∈ (plannedFrom policy position front).flatMap Plan.names, name ∉ taken) →
      ∃ taken', (∀ name, name ∈ taken' ↔
          name ∈ (plannedFrom policy position front).flatMap Plan.names ∨ name ∈ taken) ∧
        ∀ back, planFrom policy position taken (front ++ back)
          = (planFrom policy (position + front.length) taken' back).map
              (plannedFrom policy position front ++ ·) := by
  intro front
  induction front with
  | nil =>
    intro position taken _ _ _
    refine ⟨taken, fun name => by simp [plannedFrom], fun back => ?_⟩
    show planFrom policy position taken back = (planFrom policy position taken back).map id
    cases planFrom policy position taken back <;> rfl
  | cons criterion rest ih =>
    intro position taken hchecks hnodup hnew
    rw [plannedFrom, List.flatMap_cons] at hnodup hnew
    obtain ⟨hcriterion, hrest⟩ := List.forall_mem_cons.mp hchecks
    obtain ⟨hown, hothers, hapart⟩ := List.nodup_append.mp hnodup
    have hnone := firstTaken?_eq_none_iff.mpr
      ⟨hown, fun name hname => hnew name (List.mem_append_left _ hname)⟩
    -- The rest starts with the names of this criterion taken as well.
    have hfresh : ∀ name ∈ (plannedFrom policy (position + 1) rest).flatMap Plan.names,
        name ∉ (criterion.planned policy position).names ++ taken := by
      intro name hname htaken
      rcases List.mem_append.mp htaken with hmem | hmem
      · exact hapart name hmem name hname rfl
      · exact hnew name (List.mem_append_right _ hname) hmem
    obtain ⟨taken', htaken', hback⟩ := ih hrest hothers hfresh
    refine ⟨taken', fun name => ?_, fun back => ?_⟩
    · rw [htaken', plannedFrom, List.flatMap_cons, List.mem_append, List.mem_append]
      tauto
    · rw [List.cons_append, planFrom_cons, hcriterion]
      dsimp only
      rw [hnone, hback, List.length_cons, Nat.add_right_comm, Nat.add_assoc, plannedFrom]
      dsimp only
      cases planFrom policy (position + (rest.length + 1)) taken' back <;> rfl

/-- The walk over a list ends at the first criterion at fault. -/
theorem planAll_of_faultOf {policy : Policy} {front : List Criterion} {criterion : Criterion}
    {fault : Fault} (hfront : Faultless policy front)
    (hfault : FaultOf policy front criterion fault) (back : List Criterion) :
    planAll policy (front ++ criterion :: back) = .error fault := by
  obtain ⟨hchecks, hnodup⟩ := faultless_iff_accepted.mp hfront
  obtain ⟨taken, htaken, hback⟩ :=
    planFrom_append hchecks hnodup fun _ _ => List.not_mem_nil
  have hsame : ∀ name, name ∈ taken ↔ name ∈ namesOf policy front := by
    intro name
    rw [htaken, or_iff_left List.not_mem_nil]
    rfl
  rw [← faultOf?_eq_some_iff, faultOf?, namesAfter, ← firstTaken?_congr hsame,
    Nat.add_comm] at hfault
  rw [planAll, hback, planFrom_cons]
  cases hcause : criterion.cause? policy with
  | some cause =>
    rw [hcause] at hfault
    cases hfault
    rfl
  | none =>
    rw [hcause] at hfault
    obtain ⟨name, hname, rfl⟩ := Option.map_eq_some_iff.mp hfault
    dsimp only
    rw [hname]
    rfl

/-! ## Whatever takes criteria -/

namespace Builder

variable {builder : Builder} {criteria : List Criterion} {page : Page} {fault : Fault}

/-- Counting over valid tables is refused for what the clause is refused for. -/
theorem count_eq_error_iff (h : builder.registry.Valid) (fault : Fault) :
    (builder.count criteria).result = .error fault ↔
      Where.compile builder.policy.policy criteria = .error fault := by
  obtain ⟨selection, hselection⟩ := h.selectFrom "COUNT(*)"
  unfold count
  exact part_clause_eq_error_iff hselection _ _ fault

/-- An update with something to set is refused for what its clause is refused for, before
its names are looked at. -/
theorem update_of_clause_error {assignments : List Assignment} (hne : assignments ≠ [])
    (h : builder.registry.isEmpty = false)
    (hclause : Where.compile builder.policy.policy criteria = .error fault) :
    (builder.update criteria assignments page).result = .error fault := by
  have hsome : assignments.isEmpty = false := List.isEmpty_eq_false_iff.mpr hne
  obtain ⟨table, htable⟩ := Registry.primary_of_isEmpty_eq_false h
  unfold update
  simp only [hsome, Bool.false_eq_true, if_false, Trace.result_bind, Trace.result_ofExcept,
    result_clause, htable, hclause, Except.bind]

end Builder

/-- Whatever takes a criteria list is refused for one fault, and binds nothing. -/
structure RefusedFor (policy : Policy) (criteria : List Criterion) (fault : Fault) : Prop where
  plan : planAll policy criteria = .error fault
  compile : Where.compile policy criteria = .error fault
  bind : ∀ (σ : Type) [Prepared σ] (debug : Bool) (statement : σ),
    bindCriteria debug policy criteria statement = .nothing (.error fault) statement
  bindAll : ∀ (σ : Type) [Prepared σ] (builder : Builder) (assignments : List Assignment)
    (page : Page) (statement : σ), builder.policy.policy = policy →
      builder.bindValues criteria assignments page statement
        = .nothing (.error fault) statement
  select : ∀ (builder : Builder) (projection : Projection) (order : Option String) (page : Page),
    builder.policy.policy = policy → builder.registry.Valid →
      (builder.select criteria projection order page).result = .error fault
  count : ∀ builder : Builder, builder.policy.policy = policy → builder.registry.Valid →
    (builder.count criteria).result = .error fault
  update : ∀ (builder : Builder) (assignments : List Assignment) (page : Page),
    builder.policy.policy = policy → builder.registry.isEmpty = false → assignments ≠ [] →
      (builder.update criteria assignments page).result = .error fault
  delete : ∀ (builder : Builder) (page : Page),
    builder.policy.policy = policy → builder.registry.isEmpty = false →
      (builder.delete criteria page).result = .error fault

/-- Everything that takes criteria plans them first. -/
theorem RefusedFor.of_planAll {policy : Policy} {criteria : List Criterion} {fault : Fault}
    (h : planAll policy criteria = .error fault) : RefusedFor policy criteria fault := by
  have hne : criteria ≠ [] := by
    rintro rfl
    cases h
  have hclause : Where.compile policy criteria = .error fault := by
    rw [Where.compile_eq_map hne, h]
    rfl
  have hbind : ∀ (σ : Type) [Prepared σ] (debug : Bool) (statement : σ),
      bindCriteria debug policy criteria statement = .nothing (.error fault) statement := by
    intro σ _ debug statement
    unfold bindCriteria
    rw [h]
  exact {
    plan := h
    compile := hclause
    bind := hbind
    bindAll := by
      rintro σ _ builder assignments page statement rfl
      rw [Builder.bindValues, hbind]
      rfl
    select := by
      rintro builder projection order page rfl hvalid
      exact (Builder.select_eq_error_iff hvalid projection order fault).mpr hclause
    count := by
      rintro builder rfl hvalid
      exact (Builder.count_eq_error_iff hvalid fault).mpr hclause
    update := by
      rintro builder assignments page rfl hregistry hassignments
      exact Builder.update_of_clause_error hassignments hregistry hclause
    delete := by
      rintro builder page rfl hregistry
      exact (Builder.delete_eq_error_iff hregistry fault).mpr hclause }

/-- A statement that takes every binding takes every row of calls. -/
theorem result_deliver_of_taken {σ : Type} [Prepared σ]
    (h : ∀ (statement : σ) (binding : Binding), (Prepared.bind statement binding).2 = .ok ())
    (debug : Bool) : ∀ (calls : List Call) (statement : σ),
      (deliver debug calls statement).trace.result = .ok () := by
  intro calls
  induction calls with
  | nil => intro statement; rfl
  | cons call rest ih =>
    intro statement
    have htaken : Prepared.bind statement call.binding
        = ((Prepared.bind statement call.binding).1, .ok ()) :=
      Prod.ext rfl (h statement call.binding)
    rw [deliver_of_taken htaken]
    exact ih _

/-- **The first fault decides.** A list without a fault is planned and compiled, and bound
by a statement that takes every binding. In any other there is a first criterion at
fault. That has one fault, for which everything that takes the list is refused, whatever
stands after the criterion. -/
theorem first_fault_everywhere (policy : Policy) (criteria : List Criterion) :
    (Faultless policy criteria →
        (∃ plans, planAll policy criteria = .ok plans) ∧
          (∃ clause, Where.compile policy criteria = .ok clause) ∧
          ∀ (σ : Type) [Prepared σ],
            (∀ (statement : σ) (binding : Binding),
              (Prepared.bind statement binding).2 = .ok ()) →
            ∀ (debug : Bool) (statement : σ),
              (bindCriteria debug policy criteria statement).trace.result = .ok ()) ∧
      (¬ Faultless policy criteria →
        ∃ front criterion back, criteria = front ++ criterion :: back ∧
          Faultless policy front ∧ AtFault policy front criterion) ∧
      ∀ front criterion back, criteria = front ++ criterion :: back →
        Faultless policy front → AtFault policy front criterion →
          ∃! fault, FaultOf policy front criterion fault ∧
            ∀ later, RefusedFor policy (front ++ criterion :: later) fault := by
  refine ⟨fun hfaultless => ?_, exists_first_fault, fun front criterion _ _ hfront hfault => ?_⟩
  · have hplans := planAll_eq_ok_iff.mpr ⟨faultless_iff_accepted.mp hfaultless, rfl⟩
    obtain ⟨clause, hclause, -⟩ := Request.compile_of_planAll hplans
    refine ⟨⟨_, hplans⟩, ⟨clause, hclause⟩, fun σ _ htakes debug statement => ?_⟩
    unfold bindCriteria
    rw [hplans]
    exact result_deliver_of_taken htakes debug _ statement
  · obtain ⟨fault, hof, hunique⟩ := existsUnique_faultOf hfault
    refine ⟨fault, ⟨hof, fun later => ?_⟩, fun other hother => hunique other hother.1⟩
    exact .of_planAll (planAll_of_faultOf hfront hof later)

/-- A name that repeats at position 2 comes before a blank column at position 3. -/
theorem first_fault_everywhere_spelledAlike :
    (∃ plans, planAll {} (Builder.spelledAlike.take 1) = .ok plans) ∧
      RefusedFor {} (Builder.spelledAlike ++ [{ column := "" }])
        ((Fault.of (.placeholderCollision ":a12")).atPosition 2) := by
  have hfront : Faultless {} (Builder.spelledAlike.take 1) :=
    faultless_iff_accepted.mpr ⟨by decide, by decide +kernel⟩
  have hfault : AtFault {} (Builder.spelledAlike.take 1) (Criterion.equals "a1" (.int 4)) :=
    Or.inr ⟨[], ":a12", [], by decide +kernel, Or.inl (by decide +kernel)⟩
  obtain ⟨hplanned, -, -⟩ := first_fault_everywhere {} (Builder.spelledAlike.take 1)
  obtain ⟨-, -, hfirst⟩ := first_fault_everywhere {} (Builder.spelledAlike ++ [{ column := "" }])
  obtain ⟨fault, ⟨-, hrefused⟩, -⟩ := hfirst _ _ [{ column := "" }] rfl hfront hfault
  refine ⟨(hplanned hfront).1, ?_⟩
  have hname : planAll {} (Builder.spelledAlike ++ [{ column := "" }])
      = .error ((Fault.of (.placeholderCollision ":a12")).atPosition 2) := by rfl
  have hsame := (hrefused [{ column := "" }]).plan.symm.trans hname
  rw [Except.error.injEq] at hsame
  exact hsame ▸ hrefused [{ column := "" }]

end BoundSql
