import BoundSql.Proofs.Debugging
import BoundSql.Proofs.Identifiers
import BoundSql.Proofs.Rebinding

/-!
# Histories of a recorder

A recorder can be handed to any row of requests, each to a builder of its own, and
a request that is refused does not end the row. As a recorder refuses no call, a
request hands over all or nothing (`Request.bind_heard`), so a whole history is one
run of bindings into a recorder that was empty (`bindAll_heard`), and what is known
of such runs holds of every history.

That names are told apart without their colons as well is no matter of recording.
The library binds under nothing but a colon with word characters behind it, so what
is left of a name says all of it (`Placeholder.IsName.eq_colon_append`).

> `Recorder.remembers_history`: what a recorder holds after any history is told by the
> bindings that it was handed, name by name the last one, in the order of the first.
-/

namespace BoundSql

open Placeholder

/-! ## Making requests in a row -/

section Rows

variable {σ : Type} [Prepared σ]

/-- Makes requests in a row, each to a builder of its own, whatever came of those before. -/
def bindAll (history : List (Builder × Request)) (statement : σ) : σ :=
  history.foldl (fun statement entry => (entry.2.bind entry.1 statement).statement) statement

/-- Listening to a history changes nothing. -/
theorem statement_bindAll (history : List (Builder × Request)) : ∀ (statement : σ)
    (heard : List Binding),
      (bindAll history (⟨statement, heard⟩ : Overheard σ)).statement
        = bindAll history statement := by
  induction history with
  | nil => intro statement heard; rfl
  | cons entry rest ih =>
    intro statement heard
    have hstep : (entry.2.bind entry.1 (⟨statement, heard⟩ : Overheard σ)).statement.statement
        = (entry.2.bind entry.1 statement).statement :=
      congrArg Delivery.statement (entry.2.unheard_bind entry.1 statement)
    exact (ih _ _).trans (congrArg (bindAll rest) hstep)

end Rows

/-! ## Histories of a recorder -/

/-- The bindings that a request hands over to a statement that refuses none. -/
def Request.handed (builder : Builder) (request : Request) : List Binding :=
  (request.ready builder).map Call.binding

/-- The bindings that all requests of a history hand over. -/
def handedIn (history : List (Builder × Request)) : List Binding :=
  history.flatMap fun entry => entry.2.handed entry.1

namespace Recorder

/-- A recorder takes every call, and who listens hears them all. -/
theorem deliver_heard (debug : Bool) : ∀ (calls : List Call) (recorder : Recorder)
    (heard : List Binding),
      (deliver debug calls (⟨recorder, heard⟩ : Overheard Recorder)).statement
        = ⟨(calls.map Call.binding).foldl record recorder, heard ++ calls.map Call.binding⟩ := by
  intro calls
  induction calls with
  | nil =>
    intro recorder heard
    exact congrArg _ (List.append_nil heard).symm
  | cons call rest ih =>
    intro recorder heard
    have hbind : Prepared.bind recorder call.binding = (recorder.record call.binding, .ok ()) := rfl
    rw [deliver_of_taken (bind_overheard hbind heard)]
    dsimp only
    rw [ih, List.append_assoc]
    rfl

/-- **One request** records what it hands over, which is nothing if it is refused. -/
theorem bind_heard (builder : Builder) (request : Request) (recorder : Recorder)
    (heard : List Binding) :
    (request.bind builder (⟨recorder, heard⟩ : Overheard Recorder)).statement
      = ⟨(request.handed builder).foldl record recorder, heard ++ request.handed builder⟩ := by
  rw [Request.bind_eq, Request.handed, Request.ready]
  cases request.verdict builder with
  | error fault => exact congrArg _ (List.append_nil heard).symm
  | ok plans => exact deliver_heard _ _ _ _

/-- **A history** records what its requests hand over, one after the other. -/
theorem bindAll_heard (history : List (Builder × Request)) : ∀ (recorder : Recorder)
    (heard : List Binding),
      bindAll history (⟨recorder, heard⟩ : Overheard Recorder)
        = ⟨(handedIn history).foldl record recorder, heard ++ handedIn history⟩ := by
  induction history with
  | nil =>
    intro recorder heard
    exact congrArg (Overheard.mk recorder) (List.append_nil heard).symm
  | cons entry rest ih =>
    intro recorder heard
    show bindAll rest (entry.2.bind entry.1 (⟨recorder, heard⟩ : Overheard Recorder)).statement = _
    rw [bind_heard, ih, ← List.foldl_append, List.append_assoc]
    rfl

end Recorder

/-! ## The names in a history -/

/-- Assignments are bound under names, in a batch as anywhere. -/
theorem Request.isName_of_mem_assigned {request : Request} {binding : Binding}
    (h : binding ∈ request.assigned) : IsName binding.name := by
  have hname : binding.name ∈ request.assigned.map Binding.name := List.mem_map_of_mem h
  cases request with
  | ofAssignments row assignments =>
    rw [assigned, Assignment.map_name_bindings] at hname
    exact Assignment.isName_of_mem_placeholders hname
  | values criteria assignments page =>
    rw [assigned, Assignment.map_name_bindings] at hname
    exact Assignment.isName_of_mem_placeholders hname
  | batch criteria rows page =>
    rw [assigned, Assignment.map_name_rowBindings] at hname
    exact (Assignment.identifies_of_mem_rowPlaceholders hname).isName
  | _ => cases h

/-- All that a request hands over is bound under names: slots, assignments and pages. -/
theorem Request.isName_of_mem_handed {builder : Builder} {request : Request} {binding : Binding}
    (h : binding ∈ request.handed builder) : IsName binding.name := by
  unfold handed ready at h
  cases hverdict : request.verdict builder with
  | error fault =>
    rw [hverdict] at h
    cases h
  | ok plans =>
    obtain ⟨_, -, hplans⟩ := bind_eq_ok_iff.mp hverdict
    obtain ⟨-, rfl⟩ := planAll_eq_ok_iff.mp hplans
    rw [hverdict] at h
    dsimp only at h
    rw [map_binding_calls, List.mem_append, List.mem_append] at h
    rcases h with (hslot | hassigned) | hpage
    · obtain ⟨plan, hplan, hslot⟩ := List.mem_flatMap.mp hslot
      have hname : binding.name ∈ plan.names := List.mem_map_of_mem hslot
      exact (planned_names (List.mem_flatMap.mpr ⟨plan, hplan, hname⟩)).1
    · exact isName_of_mem_assigned hassigned
    · have hname : binding.name ∈ request.page.names :=
        request.page.map_name_bindings ▸ List.mem_map_of_mem hpage
      exact (Page.identifies_of_mem_names hname).isName

theorem isName_of_mem_handedIn {history : List (Builder × Request)} {binding : Binding}
    (h : binding ∈ handedIn history) : IsName binding.name := by
  obtain ⟨entry, -, hbinding⟩ := List.mem_flatMap.mp h
  exact Request.isName_of_mem_handed hbinding

/-- A name is what is left of it without its colon, with that in front. -/
theorem Placeholder.IsName.eq_colon_append {name : String} (h : IsName name) :
    name = ":" ++ Recorder.bareName name := by
  obtain ⟨word, hname, -⟩ := h
  have hbare : Recorder.bareName name = String.ofList word := by
    unfold Recorder.bareName
    rw [hname]
    rfl
  rw [hbare, ← String.toList_inj, hname, String.toList_append]
  exact congrArg (':' :: ·) String.toList_ofList.symm

/-! ## What is remembered -/

namespace Recorder

/-- What a recorder that was empty holds after some bindings: each name once, in the order in
which the names were bound first, and under it the last of its bindings. -/
structure Remembers (heard : List Binding) (recorder : Recorder) : Prop where
  names : recorder.names = (heard.map Binding.name).eraseDups
  last : ∀ name ∈ recorder.names, ∃ front binding back, heard = front ++ binding :: back ∧
    binding.name = name ∧ (∀ later ∈ back, later.name ≠ name) ∧
    recorder.get? name = some ⟨binding.value, binding.kind⟩

/-- Something is found under every name that is recorded. -/
theorem exists_bound_of_mem_names {recorder : Recorder} {name : String}
    (h : name ∈ recorder.names) : ∃ bound, recorder.get? name = some bound := by
  obtain ⟨entry, hentry, rfl⟩ := List.mem_map.mp h
  exact ⟨entry.2, KeyedList.get?_of_mem hentry⟩

/-- An empty recorder remembers any row of bindings. -/
theorem remembers_foldl_record (bindings : List Binding) :
    Remembers bindings (bindings.foldl record {}) := by
  obtain ⟨hnames, hlast, -⟩ := settled_foldl_record bindings {}
  constructor
  · have hnone : (bindings.map Binding.name).eraseDups.filter (· ∉ ({} : Recorder).names)
        = (bindings.map Binding.name).eraseDups := List.filter_eq_self.mpr fun _ _ => rfl
    rw [hnames, hnone]
    rfl
  · intro name hname
    obtain ⟨bound, hbound⟩ := exists_bound_of_mem_names hname
    have hunder : lastUnder (bindings.map Binding.entry) name = some bound := by
      rw [← hbound, hlast]
      exact Option.or_none.symm
    obtain ⟨front, back, hsplit, hback⟩ := lastUnder_eq_some_iff.mp hunder
    -- The entries are those of the bindings, one by one.
    obtain ⟨front, rest, rfl, -, hrest⟩ := List.map_eq_append_iff.mp hsplit
    obtain ⟨binding, back, rfl, hentry, rfl⟩ := List.map_eq_cons_iff.mp hrest
    rw [List.forall_mem_map] at hback
    cases hentry
    exact ⟨front, binding, back, rfl, rfl, hback, hbound⟩

/-- The pairs that a recorder gives away are its names without colons, with their values. -/
theorem forall₂_named {recorder : Recorder} (h : ∀ name ∈ recorder.names, IsName name) :
    List.Forall₂ (fun name pair => name = ":" ++ pair.1 ∧
        ∃ bound, recorder.get? name = some bound ∧ pair.2 = bound.value)
      recorder.names recorder.named := by
  refine List.forall₂_map_left_iff.mpr (List.forall₂_map_right_iff.mpr ?_)
  refine List.forall₂_same.mpr fun entry hentry => ⟨?_, entry.2, ?_, rfl⟩
  · exact (h entry.1 (List.mem_map_of_mem hentry)).eq_colon_append
  · exact KeyedList.get?_of_mem hentry

/-- Names that begin with a colon are told apart by what comes after it. -/
theorem nodup_named {recorder : Recorder} (h : ∀ name ∈ recorder.names, IsName name) :
    (recorder.named.map Prod.fst).Nodup := by
  have hbare : recorder.named.map Prod.fst = recorder.names.map bareName := by
    rw [named, names, KeyedList.keys, List.map_map, List.map_map]
    rfl
  rw [hbare]
  refine recorder.bound.nodup_keys.map_on fun name hname other hother hsame => ?_
  rw [(h name hname).eq_colon_append, hsame, ← (h other hother).eq_colon_append]

/-- **A recorder remembers the last binding of each name.** Any row of requests is made on an
empty recorder, each to a builder of its own; some of them are refused, and these hand over
nothing. The names that are recorded differ and begin with a colon. They stand in the order in
which they were bound first, and under each is found what was bound to it last. What the
recorder gives away at the end is one pair for each name, in the same order: the name without
the colon in front of it and the value. These names differ as well. -/
theorem remembers_history (history : List (Builder × Request)) :
    let recorder := bindAll history ({} : Recorder)
    let listened := bindAll history (Overheard.of ({} : Recorder))
    listened.statement = recorder ∧ listened.heard = handedIn history ∧
      recorder.names.Nodup ∧ (∀ name ∈ recorder.names, IsName name) ∧
      Remembers listened.heard recorder ∧
      List.Forall₂ (fun name pair => name = ":" ++ pair.1 ∧
          ∃ bound, recorder.get? name = some bound ∧ pair.2 = bound.value)
        recorder.names recorder.named ∧
      (recorder.named.map Prod.fst).Nodup := by
  have hlistened := bindAll_heard history {} []
  have hrecorder := statement_bindAll history ({} : Recorder) []
  rw [hlistened] at hrecorder
  dsimp only at hrecorder
  have hremembers := remembers_foldl_record (handedIn history)
  have hnames : ∀ name ∈ ((handedIn history).foldl record {}).names, IsName name := by
    intro name hname
    rw [hremembers.names, List.mem_eraseDups] at hname
    obtain ⟨binding, hbinding, rfl⟩ := List.mem_map.mp hname
    exact isName_of_mem_handedIn hbinding
  rw [← hrecorder, Overheard.of, hlistened]
  exact ⟨rfl, rfl, KeyedList.nodup_keys _, hnames, hremembers, forall₂_named hnames,
    nodup_named hnames⟩

/-- A name is bound by a criterion and then by a cell of a batch, with a batch that does not
go together in between, a criterion without a column and, at the end, an assignment of which
nothing but the colon is left. -/
def troubled : List (Builder × Request) :=
  [({}, .ofCriteria [Criterion.equals "a" (.int 1)]),
    ({}, .batch [] [[.raw "a" "1"], []] {}),
    ({}, .values [] [] { limit := 5 }),
    ({}, .ofAssignments (some 1) [{ column := "a", value := .text "x" }]),
    ({}, .ofCriteria [Criterion.equals "b" (.int 2), {}]),
    ({}, .ofAssignments none [{ column := "`", value := .null }])]

theorem remembers_history_troubled :
    let recorder := bindAll troubled ({} : Recorder)
    recorder.names = [":a1", ":limit", ":"] ∧
      recorder.named = [("a1", .text "x"), ("limit", .int 5), ("", .null)] ∧
      (handedIn troubled).map Binding.name = [":a1", ":limit", ":a1", ":"] ∧
      recorder.names.Nodup ∧ (recorder.named.map Prod.fst).Nodup ∧
      ∃ front binding back, handedIn troubled = front ++ binding :: back ∧
        binding.name = ":a1" ∧ (∀ later ∈ back, later.name ≠ ":a1") ∧
        recorder.get? ":a1" = some ⟨binding.value, binding.kind⟩ := by
  obtain ⟨-, hheard, hnodup, -, hremembers, -, hnamed⟩ := remembers_history troubled
  rw [hheard] at hremembers
  have hnames : (bindAll troubled ({} : Recorder)).names = [":a1", ":limit", ":"] := by
    rw [hremembers.names]
    decide +kernel
  have hfirst : ":a1" ∈ (bindAll troubled ({} : Recorder)).names := by
    rw [hnames]
    exact List.mem_cons_self
  exact ⟨hnames, rfl, rfl, hnodup, hnamed, hremembers.last ":a1" hfirst⟩

end Recorder

end BoundSql
