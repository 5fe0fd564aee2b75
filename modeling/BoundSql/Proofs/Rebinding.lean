import BoundSql.Proofs.Insertions
import BoundSql.Proofs.Overhearing

/-!
# Binding to a recorder that has been used

A recorder takes every binding, so a request that is not refused is one run of
insertions into whatever was recorded before. The values of criteria, assignments
and page may meet under one name, in the run or in the recorder: the place is that
of the first, the value that of the last. Nothing else is touched, and the run is
what is recorded afterwards, so to make it again changes nothing.

A request that is refused has made no call at all, because all that a recorder
could be refused for is checked before.

> `Request.bind_settles`: what a recorder holds after a request, and that the same
> request leaves it alone from then on.
-/

namespace BoundSql

/-- A binding as an entry under its name. -/
def Binding.entry (binding : Binding) : String × Bound :=
  (binding.name, ⟨binding.value, binding.kind⟩)

theorem Binding.map_fst_entry (bindings : List Binding) :
    (bindings.map entry).map Prod.fst = bindings.map name := by
  rw [List.map_map]
  rfl

namespace Recorder

/-- What a recorder holds after some bindings: the names that it had, then the new ones in
the order in which they were bound first; under each the last that was bound, if anything
was; and all bindings under other names, as they were. -/
structure Settled (before : Recorder) (heard : List Binding) (after : Recorder) : Prop where
  names : after.names
    = before.names ++ (heard.map Binding.name).eraseDups.filter (· ∉ before.names)
  last : ∀ name, after.get? name
    = (lastUnder (heard.map Binding.entry) name).or (before.get? name)
  others : after.bindings.filter (·.name ∉ heard.map Binding.name)
    = before.bindings.filter (·.name ∉ heard.map Binding.name)

/-- Recording some bindings is a run of insertions. -/
theorem bound_foldl_record (bindings : List Binding) (recorder : Recorder) :
    (bindings.foldl record recorder).bound
      = recorder.bound.insertAll (bindings.map Binding.entry) := by
  induction bindings generalizing recorder with
  | nil => rfl
  | cons binding rest ih => exact ih (recorder.record binding)

/-- A row of bindings settles in a recorder. -/
theorem settled_foldl_record (bindings : List Binding) (recorder : Recorder) :
    Settled recorder bindings (bindings.foldl record recorder) := by
  have hbound := bound_foldl_record bindings recorder
  refine ⟨?_, fun name => ?_, ?_⟩
  · rw [names, hbound, KeyedList.keys_insertAll, Binding.map_fst_entry]
    rfl
  · rw [get?, hbound, KeyedList.get?_insertAll]
    rfl
  · have hkeys : ∀ name ∈ (bindings.map Binding.entry).map Prod.fst,
        decide (name ∉ bindings.map Binding.name) = false := by
      intro name hname
      rw [Binding.map_fst_entry] at hname
      exact decide_eq_false (not_not_intro hname)
    -- A binding carries its name in its entry, so filtering bindings is filtering entries.
    rw [Recorder.bindings, Recorder.bindings, List.filter_map, List.filter_map, hbound]
    exact congrArg _ (KeyedList.filter_insertAll recorder.bound hkeys)

/-- Bindings that were recorded are recorded again without a trace. -/
theorem foldl_record_again (bindings : List Binding) (recorder : Recorder) :
    bindings.foldl record (bindings.foldl record recorder) = bindings.foldl record recorder := by
  have hbound := bound_foldl_record bindings (bindings.foldl record recorder)
  rw [bound_foldl_record bindings recorder, KeyedList.insertAll_insertAll,
    ← bound_foldl_record bindings recorder] at hbound
  exact congrArg Recorder.mk hbound

end Recorder

namespace Request

/-- A request with nothing wrong records all its bindings. -/
theorem bind_recorder {builder : Builder} {request : Request} {plans : List Plan}
    (h : request.verdict builder = .ok plans) (recorder : Recorder) :
    (request.bind builder recorder).trace.result = .ok () ∧
      (request.bind builder recorder).statement
        = (plans.flatMap Plan.slots ++ request.assigned ++ request.page.bindings).foldl
            Recorder.record recorder := by
  rw [bind_eq, h, ← map_binding_calls]
  exact Recorder.deliver_eq builder.debug (request.calls plans) recorder

/-- **Binding settles.** A request to a recorder, be it for the values of a statement or for
those of a batch, leaves the recorder as it is if it is refused. Otherwise what it hands over
comes to stand among what was recorded before: names that were there keep their places, new
ones follow in the order in which they are bound first, each has what is bound under it last,
and bindings under other names keep their values, their types and their order. The same
request is then taken again, and leaves exactly the same recorder. -/
theorem bind_settles (builder : Builder) (request : Request) (recorder : Recorder) :
    (∀ fault, (request.bind builder recorder).trace.result = .error fault →
        (request.bind builder recorder).statement = recorder) ∧
      ((request.bind builder recorder).trace.result = .ok () →
        Recorder.Settled recorder
            (request.bind builder (Overheard.of recorder)).statement.heard
            (request.bind builder recorder).statement ∧
          (request.bind builder (request.bind builder recorder).statement).trace.result = .ok () ∧
          (request.bind builder (request.bind builder recorder).statement).statement
            = (request.bind builder recorder).statement) := by
  constructor
  · intro fault h
    cases hverdict : request.verdict builder with
    | error first =>
      rw [bind_eq, hverdict]
      rfl
    -- A recorder takes all that can be planned, so there was no fault.
    | ok plans =>
      rw [(bind_recorder hverdict recorder).1] at h
      cases h
  · intro h
    obtain ⟨plans, hverdict⟩ := exists_plans_of_ok h
    obtain ⟨hagain, hstatement⟩ :=
      bind_recorder hverdict (request.bind builder recorder).statement
    refine ⟨?_, hagain, ?_⟩
    · rw [heard_eq hverdict h, (bind_recorder hverdict recorder).2]
      exact Recorder.settled_foldl_record _ recorder
    · rw [hstatement, (bind_recorder hverdict recorder).2]
      exact Recorder.foldl_record_again _ recorder

/-- A number for a page that is no longer asked for, and a value of the caller. -/
def used : Recorder :=
  ({} : Recorder).record ⟨":limit", .int 7, .int⟩ |>.record ⟨":y", .bool true, .bool⟩

/-- A criterion and an assignment under one name, and an assignment and a page. -/
def meeting : Request :=
  .values [Criterion.equals "a" (.int 1)]
    [{ column := "a1", value := .int 2 }, { column := "limit", value := .int 3 },
      { column := "x", value := .int 4 }] { limit := 5 }

/-- Names that were used before keep their places, and the last value counts. -/
theorem bind_settles_meeting :
    (meeting.bind {} used).statement.names = [":limit", ":y", ":a1", ":x"] ∧
      (meeting.bind {} used).statement.get? ":a1" = some ⟨.int 2, .text⟩ ∧
      (meeting.bind {} used).statement.get? ":limit" = some ⟨.int 5, .int⟩ ∧
      (meeting.bind {} used).statement.get? ":y" = some ⟨.bool true, .bool⟩ ∧
      (meeting.bind {} (meeting.bind {} used).statement).statement
        = (meeting.bind {} used).statement ∧
      ((batch [] [[.raw "a" "1"], []] {}).bind {} used).statement = used := by
  obtain ⟨-, hsettles⟩ := bind_settles {} meeting used
  obtain ⟨hsettled, -, hagain⟩ := hsettles rfl
  obtain ⟨hrefused, -⟩ := bind_settles {} (batch [] [[.raw "a" "1"], []] {}) used
  refine ⟨?_, ?_, ?_, ?_, hagain, hrefused _ rfl⟩
  · rw [hsettled.names]
    decide +kernel
  · rw [hsettled.last]
    rfl
  · rw [hsettled.last]
    rfl
  · rw [hsettled.last]
    rfl

end Request

end BoundSql
