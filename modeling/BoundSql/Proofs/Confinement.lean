import BoundSql.Policy.Toml
import BoundSql.Proofs.FirstFault
import BoundSql.Proofs.ReadingOrder
import BoundSql.Proofs.Secrecy

/-!
# Operators stay within the policy

Only operators that a criterion names are compared with the allowed ones when
it is checked. Those that it leaves out are taken from the policy unseen. That
nothing gets around the allowed sets is therefore shared between two places, and
neither is enough alone:

> `Policy.sound_iff_within`: all plans that are ever made under a policy stay
> within it exactly when the policy is sound.

A compiler holds a policy, and every way to one looks at the defaults first, so
there is none with a policy that is not sound:

> `Policy.obtained_confines`: whichever way a compiler was obtained, and whatever
> the criteria name or leave out, the operators in effect are allowed ones.
-/

namespace BoundSql

/-! ## What a criterion names -/

/-- The operators in effect are allowed ones. -/
def Plan.Within (policy : Policy) (plan : Plan) : Prop :=
  plan.comparison ∈ policy.allowedComparisons ∧ plan.connective ∈ policy.allowedConnectives

/-- A criterion names an operator that is not allowed. -/
def Criterion.Oversteps (policy : Policy) (criterion : Criterion) : Prop :=
  (∃ op, criterion.comparison = some op ∧ op ∉ policy.allowedComparisons) ∨
    ∃ op, criterion.connective = some op ∧ op ∉ policy.allowedConnectives

namespace Criterion

variable {policy : Policy} {criterion : Criterion}

/-- A criterion that passes the checks names allowed operators only. -/
theorem not_oversteps_of_cause? (h : criterion.cause? policy = none) :
    ¬ criterion.Oversteps policy := by
  unfold cause? at h
  split at h
  · cases h
  · dsimp only at h
    split at h
    · cases h
    · cases h
    · next hcomparison hconnective =>
      rw [Option.filter_eq_none_iff] at hcomparison hconnective
      intro hoversteps
      rcases hoversteps with ⟨op, hop, hforeign⟩ | ⟨op, hop, hforeign⟩
      · exact hcomparison op hop (by simpa using hforeign)
      · exact hconnective op hop (by simpa using hforeign)

/-- What is left out is taken from the policy, so both halves are needed. -/
theorem within_planned (hsound : policy.Sound) (h : ¬ criterion.Oversteps policy)
    (position : Nat) : (criterion.planned policy position).Within policy := by
  obtain ⟨hcomparison, hconnective⟩ := not_or.mp h
  constructor
  · show criterion.comparison.getD policy.comparison ∈ _
    cases hnamed : criterion.comparison with
    | none => exact hsound.1
    | some op => exact not_not.mp fun hforeign => hcomparison ⟨op, hnamed, hforeign⟩
  · show criterion.connective.getD policy.connective ∈ _
    cases hnamed : criterion.connective with
    | none => exact hsound.2
    | some op => exact not_not.mp fun hforeign => hconnective ⟨op, hnamed, hforeign⟩

/-- A condition that leaves both operators out passes under every policy. -/
theorem cause?_equals (policy : Policy) (value : Int64) :
    (equals "a" (.int value)).cause? policy = none := by
  have hcolumn : Text.allBlank "a" = false := by decide
  unfold cause?
  rw [if_neg (by rw [equals, hcolumn]; exact Bool.false_ne_true)]
  exact ite_self none

end Criterion

/-! ## Whole lists -/

namespace Policy

variable {policy : Policy}

/-- **Confinement is soundness.** A policy confines all plans that are made under it
exactly when its own defaults are allowed. -/
theorem sound_iff_within :
    policy.Sound ↔
      ∀ criteria plans, planAll policy criteria = .ok plans →
        ∀ plan ∈ plans, plan.Within policy := by
  constructor
  · intro hsound criteria plans hplans plan hplan
    obtain ⟨haccepted, rfl⟩ := planAll_eq_ok_iff.mp hplans
    obtain ⟨position, criterion, -, hmem, rfl⟩ := mem_plannedFrom hplan
    exact Criterion.within_planned hsound
      (Criterion.not_oversteps_of_cause? (haccepted.checks criterion hmem)) position
  · intro h
    -- The one criterion that leaves everything out shows the defaults.
    have haccepted : Accepted policy [Criterion.equals "a" (.int 1)] := by
      refine ⟨fun criterion hmem => ?_, ?_⟩
      · rw [List.mem_singleton.mp hmem]
        exact Criterion.cause?_equals policy 1
      · show ((Criterion.equals "a" (.int 1)).planned policy 1).names ++ [] |>.Nodup
        rw [List.append_nil, Plan.names, Criterion.planned, Criterion.names_slots]
        split
        · exact List.nodup_singleton _
        · exact List.nodup_nil
    exact h _ _ (planAll_eq_ok_iff.mpr ⟨haccepted, rfl⟩) _ List.mem_cons_self

/-- What names a foreign operator is refused, by planning, compiling and binding alike. -/
theorem refused_of_oversteps {criteria : List Criterion} {criterion : Criterion}
    (hmem : criterion ∈ criteria) (h : criterion.Oversteps policy) :
    ∃ fault, RefusedFor policy criteria fault := by
  cases hplans : planAll policy criteria with
  | error fault => exact ⟨fault, .of_planAll hplans⟩
  | ok plans =>
    obtain ⟨haccepted, -⟩ := planAll_eq_ok_iff.mp hplans
    exact absurd h (Criterion.not_oversteps_of_cause? (haccepted.checks criterion hmem))

/-! ## Compilers -/

/-- A policy is accepted as it is, if its defaults are allowed. -/
theorem check_eq_ok_iff {compiler : SoundPolicy} :
    policy.check = .ok compiler ↔ policy.Sound ∧ compiler.policy = policy := by
  unfold check
  split
  · next hsound =>
    constructor
    · intro h
      cases h
      exact ⟨hsound, rfl⟩
    · rintro ⟨-, rfl⟩
      rfl
  · next hunsound =>
    constructor
    · intro h
      cases h
    · intro hparts
      exact absurd hparts.1 hunsound

/-- The ways to a compiler: without a policy, from one, or from the text of one. -/
inductive Obtained : SoundPolicy → Prop where
  | standard : Obtained default
  | ofPolicy {policy : Policy} {compiler : SoundPolicy} (h : policy.check = .ok compiler) :
      Obtained compiler
  | ofText {source : String} {given compiler : SoundPolicy} (hread : read source = .ok given)
      (h : given.policy.check = .ok compiler) : Obtained compiler

/-- The text of a policy is accepted when the policy that it gives is. -/
theorem read_eq_ok_iff {source : String} {given : SoundPolicy} :
    read source = .ok given ↔ ∃ policy, ofToml source = .ok policy ∧ policy.check = .ok given := by
  unfold read
  cases ofToml source with
  | ok policy => exact ⟨fun h => ⟨policy, rfl, h⟩, fun ⟨_, h, hcheck⟩ => by cases h; exact hcheck⟩
  | error misfit =>
    constructor
    · intro h
      cases h
    · intro hparts
      obtain ⟨_, h, -⟩ := hparts
      cases h

/-- Whichever way a compiler was obtained, the defaults have been looked at. -/
theorem Obtained.sound {compiler : SoundPolicy} (h : Obtained compiler) :
    compiler.policy.Sound := by
  cases h with
  | standard =>
    show Policy.Sound {}
    decide
  | ofPolicy h =>
    obtain ⟨hsound, rfl⟩ := check_eq_ok_iff.mp h
    exact hsound
  | ofText _ h =>
    obtain ⟨hsound, hsame⟩ := check_eq_ok_iff.mp h
    exact hsame ▸ hsound

/-- **Leaving out gets around nothing.** A policy gives a compiler exactly when both of its
defaults are allowed, and the text of a policy when those of the policy that it gives are.
However a compiler was obtained, the plans that it makes of a criteria list, one for each
criterion, and those that its clauses are written from have allowed operators in effect.
A list with a criterion that names any other is refused by whatever takes it. -/
theorem obtained_confines :
    (∀ policy : Policy,
        (∃ compiler, policy.check = .ok compiler ∧ compiler.policy = policy) ↔
          policy.comparison ∈ policy.allowedComparisons ∧
            policy.connective ∈ policy.allowedConnectives) ∧
      (∀ source : String,
        (∃ given compiler, read source = .ok given ∧ given.policy.check = .ok compiler) ↔
          ∃ policy, ofToml source = .ok policy ∧
            policy.comparison ∈ policy.allowedComparisons ∧
            policy.connective ∈ policy.allowedConnectives) ∧
      ∀ compiler, Obtained compiler → ∀ criteria : List Criterion,
        (∀ plans, planAll compiler.policy criteria = .ok plans →
          plans.map Plan.criterion = criteria ∧ ∀ plan ∈ plans,
            plan.comparison ∈ compiler.policy.allowedComparisons ∧
              plan.connective ∈ compiler.policy.allowedConnectives) ∧
        (∀ clause, Where.compile compiler.policy criteria = .ok clause →
          ∃ plans, planAll compiler.policy criteria = .ok plans ∧
            (criteria ≠ [] → clause = Where.ofPlans plans)) ∧
        ∀ criterion ∈ criteria,
          (∃ op, criterion.comparison = some op ∧ op ∉ compiler.policy.allowedComparisons) ∨
              (∃ op, criterion.connective = some op ∧ op ∉ compiler.policy.allowedConnectives) →
            ∃ fault, RefusedFor compiler.policy criteria fault := by
  refine ⟨fun policy => ?_, fun source => ?_, fun compiler hobtained criteria => ⟨?_, ?_, ?_⟩⟩
  · constructor
    · rintro ⟨compiler, hcheck, -⟩
      exact (check_eq_ok_iff.mp hcheck).1
    · intro hsound
      exact ⟨⟨policy, hsound⟩, check_eq_ok_iff.mpr ⟨hsound, rfl⟩, rfl⟩
  · constructor
    · rintro ⟨given, compiler, hread, -⟩
      obtain ⟨policy, hpolicy, hcheck⟩ := read_eq_ok_iff.mp hread
      exact ⟨policy, hpolicy, (check_eq_ok_iff.mp hcheck).1⟩
    · rintro ⟨policy, hpolicy, hsound⟩
      have hcheck : policy.check = .ok ⟨policy, hsound⟩ := check_eq_ok_iff.mpr ⟨hsound, rfl⟩
      exact ⟨⟨policy, hsound⟩, ⟨policy, hsound⟩, read_eq_ok_iff.mpr ⟨policy, hpolicy, hcheck⟩,
        hcheck⟩
  · intro plans hplans
    refine ⟨?_, sound_iff_within.mp hobtained.sound criteria plans hplans⟩
    rw [(planAll_eq_ok_iff.mp hplans).2]
    exact map_criterion_plannedFrom _ criteria 1
  · intro clause hclause
    have hplans := planAll_eq_ok_iff.mpr ⟨(Where.accepted_of_compile hclause).1, rfl⟩
    exact ⟨_, hplans, fun hne => ((Where.compile_eq_ok_iff hne).mp hclause).2⟩
  · intro criterion hmem hforeign
    exact refused_of_oversteps hmem hforeign

/-- A policy that knows one comparison and one connective. -/
def listsOnly : Policy where
  comparison := .isIn
  connective := .or
  allowedComparisons := [.isIn]
  allowedConnectives := [.or]

/-- A condition that leaves its operators to the policy. -/
def leftOut : Criterion := { column := "a", value := some (.list [.int 1, .int 2]) }

/-- A policy that allows lists only, and what comes of criteria under it. -/
theorem obtained_confines_listsOnly :
    let compiler : SoundPolicy := ⟨listsOnly, by decide⟩
    read "compiler = ['IN', 'OR', ['IN'], ['OR']]" = .ok compiler ∧ Obtained compiler ∧
      (∃ plans, planAll listsOnly [leftOut] = .ok plans ∧
        plans.map Plan.criterion = [leftOut] ∧
        ∀ plan ∈ plans, plan.comparison ∈ [Comparison.isIn] ∧ plan.connective ∈ [Connective.or]) ∧
      (∃ clause, Where.compile listsOnly [leftOut] = .ok clause ∧
        ∃ plans, planAll listsOnly [leftOut] = .ok plans ∧
          ([leftOut] ≠ [] → clause = Where.ofPlans plans)) ∧
      ∃ fault, RefusedFor listsOnly [leftOut, { leftOut with connective := some .and }] fault := by
  have hsome : (ofToml "compiler = ['IN', 'OR', ['IN'], ['OR']]").toOption = some listsOnly := by
    decide +kernel
  have htext : ofToml "compiler = ['IN', 'OR', ['IN'], ['OR']]" = .ok listsOnly := by
    cases hresult : ofToml "compiler = ['IN', 'OR', ['IN'], ['OR']]" with
    | ok policy =>
      rw [hresult] at hsome
      exact congrArg Except.ok (Option.some.inj hsome)
    | error misfit =>
      rw [hresult] at hsome
      cases hsome
  have hcheck : listsOnly.check = .ok ⟨listsOnly, by decide⟩ := rfl
  have hread := read_eq_ok_iff.mpr ⟨listsOnly, htext, hcheck⟩
  have hobtained := Obtained.ofText hread hcheck
  obtain ⟨-, -, hcompilers⟩ := obtained_confines
  obtain ⟨hplans, hclauses, -⟩ := hcompilers _ hobtained [leftOut]
  obtain ⟨-, -, hrefused⟩ :=
    hcompilers _ hobtained [leftOut, { leftOut with connective := some .and }]
  refine ⟨hread, hobtained, ⟨_, rfl, hplans _ rfl⟩, ⟨_, rfl, hclauses _ rfl⟩, ?_⟩
  exact hrefused _ (List.mem_cons_of_mem _ List.mem_cons_self) (Or.inr ⟨.and, rfl, by decide⟩)

end Policy

end BoundSql
