import BoundSql.Builder.Basic
import BoundSql.Proofs.Planning
import Mathlib.Algebra.GroupWithZero.Nat
import Mathlib.Algebra.Ring.Int.Defs
import Mathlib.Data.List.Nodup

/-!
# What is bound

All the values of a statement are bound by one row of calls:

> `Builder.bindValues_eq`: when the criteria can be planned, binding is making
> the `Builder.calls` in their order, whatever the prepared statement is.

A recorder refuses none of them. Where all names are new and differ from each
other, each is found afterwards with what was bound under it.
-/

namespace BoundSql

/-! ## Recording a row of bindings -/

namespace Recorder

/-- Names that are new and distinct come after those that are there. -/
theorem names_foldl_record : ∀ (bindings : List Binding) (recorder : Recorder),
    (recorder.names ++ bindings.map Binding.name).Nodup →
      (bindings.foldl record recorder).names = recorder.names ++ bindings.map Binding.name := by
  intro bindings
  induction bindings with
  | nil =>
    intro recorder _
    rw [List.foldl_nil, List.map_nil, List.append_nil]
  | cons binding rest ih =>
    intro recorder hnodup
    have hnew : binding.name ∉ recorder.names := by
      intro hmem
      exact (List.nodup_append.mp hnodup).2.2 _ hmem _ List.mem_cons_self rfl
    have hnames : (recorder.record binding).names = recorder.names ++ [binding.name] := by
      rw [names_record, if_neg hnew]
    rw [List.map_cons, List.append_cons, ← hnames] at hnodup
    rw [List.foldl_cons, ih _ hnodup, hnames, List.map_cons, ← List.append_cons]

/-- Bindings under other names leave a name alone. -/
theorem get?_foldl_record_of_not_mem : ∀ (bindings : List Binding) (recorder : Recorder)
    {name : String}, name ∉ bindings.map Binding.name →
      (bindings.foldl record recorder).get? name = recorder.get? name := by
  intro bindings
  induction bindings with
  | nil => intro recorder name _; rfl
  | cons binding rest ih =>
    intro recorder name hname
    rw [List.map_cons, List.mem_cons, not_or] at hname
    rw [List.foldl_cons, ih _ hname.2, get?_record, if_neg fun hsame => hname.1 hsame.symm]

/-- What was bound under distinct names is found there. -/
theorem get?_foldl_record : ∀ (bindings : List Binding) (recorder : Recorder),
    (bindings.map Binding.name).Nodup → ∀ binding ∈ bindings,
      (bindings.foldl record recorder).get? binding.name
        = some ⟨binding.value, binding.kind⟩ := by
  intro bindings
  induction bindings with
  | nil => intro recorder _ binding hbinding; cases hbinding
  | cons first rest ih =>
    intro recorder hnodup binding hbinding
    rw [List.map_cons, List.nodup_cons] at hnodup
    rw [List.foldl_cons]
    rcases List.mem_cons.mp hbinding with rfl | hbinding
    · rw [get?_foldl_record_of_not_mem rest _ hnodup.1, get?_record, if_pos rfl]
    · exact ih _ hnodup.2 binding hbinding

/-- Under a name is what was bound to it, if the names are distinct, and nothing else. -/
theorem get?_eq_some_iff_mem {bindings : List Binding} (h : (bindings.map Binding.name).Nodup)
    {name : String} {value : Value} {kind : BindType} :
    (bindings.foldl record {}).get? name = some ⟨value, kind⟩ ↔
      (⟨name, value, kind⟩ : Binding) ∈ bindings := by
  constructor
  · intro hfound
    have hname : name ∈ bindings.map Binding.name := by
      by_contra hname
      rw [get?_foldl_record_of_not_mem bindings {} hname] at hfound
      cases hfound
    obtain ⟨binding, hbinding, rfl⟩ := List.mem_map.mp hname
    rw [get?_foldl_record bindings {} h binding hbinding] at hfound
    cases hfound
    exact hbinding
  · exact get?_foldl_record bindings {} h _

/-- A recorder takes every call. -/
theorem deliver_eq (debug : Bool) : ∀ (calls : List Call) (recorder : Recorder),
    (deliver debug calls recorder).trace.result = .ok () ∧
      (deliver debug calls recorder).statement
        = (calls.map Call.binding).foldl record recorder := by
  intro calls
  induction calls with
  | nil => intro recorder; exact ⟨rfl, rfl⟩
  | cons call rest ih =>
    intro recorder
    obtain ⟨hresult, hstatement⟩ := ih (recorder.record call.binding)
    exact ⟨hresult, hstatement⟩

end Recorder

/-! ## The numbers of a page -/

namespace Page

/-- What is to be bound for a page, by its two numbers: the rows to skip where both are there,
and the rows to return where that is there. A number that is too large for a number with a
sign is sent as the largest of those. -/
def numbers (page : Page) : List Binding :=
  (if page.start ≠ 0 ∧ page.limit ≠ 0 then
      [⟨":start", .int (Int64.ofNat (min page.start.toNat (2 ^ 63 - 1))), .int⟩]
    else [])
    ++ if page.limit ≠ 0 then
      [⟨":limit", .int (Int64.ofNat (min page.limit.toNat (2 ^ 63 - 1))), .int⟩]
    else []

/-- A page binds its numbers. -/
theorem bindings_eq_numbers (page : Page) : page.bindings = page.numbers := by
  obtain ⟨start, limit⟩ := page
  unfold bindings numbers hasStart isEmpty rowCount
  by_cases hlimit : limit = 0
  · simp [hlimit]
  · by_cases hstart : start = 0
    · simp [hlimit, hstart, Placeholder.limit]
    · simp [hlimit, hstart, Placeholder.start, Placeholder.limit]

/-- What is sent for a number is that number, or the largest one with a sign. -/
theorem toInt_sent (count : UInt64) :
    (Int64.ofNat (min count.toNat (2 ^ 63 - 1))).toInt = min count.toNat (2 ^ 63 - 1) := by
  rw [Int64.toInt_ofNat_of_lt (by omega)]

/-- No other number with a sign is that number, or the largest. -/
theorem toInt_eq_iff_sent {count : UInt64} {sent : Int64} :
    sent.toInt = min count.toNat (2 ^ 63 - 1) ↔
      sent = Int64.ofNat (min count.toNat (2 ^ 63 - 1)) := by
  rw [← toInt_sent, Int64.toInt_inj]

/-- A number of a page is one of its two, under its own name. -/
theorem mem_numbers_iff {page : Page} {binding : Binding} :
    binding ∈ page.numbers ↔
      (page.start ≠ 0 ∧ page.limit ≠ 0 ∧ ∃ sent : Int64,
          sent.toInt = min page.start.toNat (2 ^ 63 - 1) ∧
            binding = ⟨":start", .int sent, .int⟩) ∨
        page.limit ≠ 0 ∧ ∃ sent : Int64,
          sent.toInt = min page.limit.toNat (2 ^ 63 - 1) ∧
            binding = ⟨":limit", .int sent, .int⟩ := by
  simp only [toInt_eq_iff_sent, exists_eq_left]
  unfold numbers
  by_cases hlimit : page.limit = 0
  · simp [hlimit]
  · by_cases hstart : page.start = 0
    · simp [hlimit, hstart]
    · simp [hlimit, hstart]

end Page

/-! ## The calls of a statement -/

/-- Calls that are made for bindings come back as those bindings. -/
theorem Call.map_binding_map (origin : Origin) (bindings : List Binding) :
    (bindings.map (Call.mk origin)).map Call.binding = bindings := by
  rw [List.map_map]
  exact List.map_id bindings

/-- The names of bound assignments are those of their placeholders. -/
theorem Call.map_name_assignmentBinding (row : Option Nat) (assignments : List Assignment) :
    ((assignments.filter Assignment.bound).map (Call.assignmentBinding row)).map Binding.name
      = Assignment.placeholders row assignments := by
  rw [List.map_map]
  rfl

/-- Criteria, then other calls, then a page are one row of calls, if there are plans. -/
theorem bindCriteria_andThen {σ : Type} [Prepared σ] (debug : Bool) (policy : Policy)
    (criteria : List Criterion) (middle : List Call) (page : Page) (statement : σ) :
    ((bindCriteria debug policy criteria statement).andThen fun statement =>
        (deliver debug middle statement).andThen (bindPage debug page))
      = match planAll policy criteria with
        | .error fault => .nothing (.error fault) statement
        | .ok plans =>
          deliver debug (Call.ofPlans plans ++ (middle ++ Call.ofPage page)) statement := by
  unfold bindCriteria
  cases planAll policy criteria with
  | error fault => rfl
  | ok plans =>
    dsimp only
    rw [deliver_append]
    congr 1
    funext statement
    rw [deliver_append]
    rfl

namespace Builder

/-- The calls by which the values of a statement are bound. -/
def calls (builder : Builder) (criteria : List Criterion) (assignments : List Assignment)
    (page : Page) : List Call :=
  Call.ofPlans (planned builder.policy.policy criteria)
    ++ (Call.ofAssignments none assignments ++ Call.ofPage page)

/-- The bindings that are made for a statement. -/
theorem map_binding_calls (builder : Builder) (criteria : List Criterion)
    (assignments : List Assignment) (page : Page) :
    (builder.calls criteria assignments page).map Call.binding
      = (planned builder.policy.policy criteria).flatMap Plan.slots
        ++ ((assignments.filter Assignment.bound).map (Call.assignmentBinding none)
          ++ page.bindings) := by
  unfold calls Call.ofPlans Call.ofAssignments Call.ofPage
  rw [List.map_append, List.map_append, Call.map_binding_map, Call.map_binding_map, List.map_map]
  rfl

/-- **Binding is making the calls.** -/
theorem bindValues_eq {σ : Type} [Prepared σ] {builder : Builder} {criteria : List Criterion}
    (h : Accepted builder.policy.policy criteria) (assignments : List Assignment) (page : Page)
    (statement : σ) :
    builder.bindValues criteria assignments page statement
      = deliver builder.debug (builder.calls criteria assignments page) statement := by
  have hplans := planAll_eq_ok_iff.mpr ⟨h, rfl⟩
  unfold bindValues bindAssignments calls
  rw [bindCriteria_andThen, hplans]

end Builder

end BoundSql
