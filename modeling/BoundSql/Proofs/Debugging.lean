import BoundSql.Log.Settings
import BoundSql.Proofs.Overhearing
import BoundSql.Proofs.Quoting

/-!
# Debugging

Whether debugging is on is read off the environment, and a builder passes it
down to wherever something is reported. A `session` is any row of calls on a
builder and a statement, which may refuse what it is handed. Its steps are
compared between two environments:

> `Builder.debugging_only_reports`: with debugging on, every call has the same
> answer and leaves the same statement behind. Without the events that show a
> clause or a name that is bound, what is reported is the same too. What a
> request reports are the names of the calls that it made for criteria and
> assignments, the refused one included, and nothing of a page.

To leave out the details of a trace is to make it `quiet`. That goes through
every operation on traces, so a computation with debugging on, made quiet, is
the computation with debugging off, operation by operation. What a request
reports is then followed call by call, beside what it hands over.
-/

namespace BoundSql

/-! ## Details -/

namespace Event

/-- The messages of the events that are reported just before a value is bound. -/
def bindingMessages : List String := ["binding criterion value", "binding field value"]

/-- The messages of the events that are left out unless debugging is on. -/
def detailMessages : List String := "WHERE clause text" :: bindingMessages

/-- Which events are details is told by their messages. -/
theorem isDetail_eq (event : Event) : event.isDetail = decide (event.message ∈ detailMessages) := by
  cases event <;> rfl

/-- The name in an event that is reported just before a value is bound. -/
def boundName? (event : Event) : Option String :=
  if event.message ∈ bindingMessages then event.fields.lookup "name" else none

end Event

/-- The calls of a request are reported as details, each by the name that is bound. -/
theorem Call.isDetail_of_mem {call : Call} {event : Event} (h : event ∈ call.details) :
    event.isDetail = true := by
  obtain ⟨origin, binding⟩ := call
  cases origin with
  | criterion =>
    rw [List.mem_singleton.mp h]
    rfl
  | assignment =>
    rw [List.mem_singleton.mp h]
    rfl
  | page => cases h

namespace Trace

variable {α β : Type}

/-- A trace without its details. -/
def quiet (trace : Trace α) : Trace α :=
  ⟨trace.events.filter fun event => !event.isDetail, trace.result⟩

theorem quiet_pure (value : α) : (pure value : Trace α).quiet = pure value := rfl

theorem quiet_ofExcept (result : Except Fault α) : (ofExcept result).quiet = ofExcept result := rfl

/-- What is left out of a sequence is left out of its parts. -/
theorem quiet_bind (first : Trace α) (next : α → Trace β) :
    (first >>= next).quiet = first.quiet >>= fun value => (next value).quiet := by
  obtain ⟨events, result⟩ := first
  cases result with
  | error fault => rfl
  | ok value =>
    show Trace.mk (List.filter _ (events ++ (next value).events)) _ = _
    rw [List.filter_append]
    rfl

theorem quiet_map (f : α → β) (trace : Trace α) : (f <$> trace).quiet = f <$> trace.quiet :=
  quiet_bind trace fun value => pure (f value)

/-- Nothing is left out of what is no detail. -/
theorem quiet_report {events : List Event} (h : ∀ event ∈ events, event.isDetail = false) :
    (report events).quiet = report events := by
  have hkept : events.filter (fun event => !event.isDetail) = events :=
    List.filter_eq_self.mpr fun event hevent => by rw [h event hevent]; rfl
  unfold quiet report
  rw [hkept]

/-- Of details alone nothing is left. -/
theorem filter_details {events : List Event} (h : ∀ event ∈ events, event.isDetail = true) :
    events.filter (fun event => !event.isDetail) = [] :=
  List.filter_eq_nil_iff.mpr fun event hevent => by rw [h event hevent]; decide

/-- To leave out the details that are reported is not to report them. -/
theorem quiet_reportDetail {events : List Event} (h : ∀ event ∈ events, event.isDetail = true) :
    (reportDetail true events).quiet = reportDetail false events := by
  show Trace.mk (List.filter _ events) _ = _
  rw [filter_details h]
  rfl

end Trace

/-! ## Clauses and statements -/

open Trace

/-- What compiling reports without debugging is what it reports with debugging, made quiet. -/
theorem Where.quiet_compileTraced (policy : Policy) (criteria : List Criterion) :
    (compileTraced true policy criteria).quiet = compileTraced false policy criteria := by
  unfold compileTraced
  split
  · rfl
  · have hconditions : ∀ (plans : List Plan), ∀ event ∈ plans.map fun plan =>
        Event.conditionWritten plan.position plan.condition, event.isDetail = false := by
      intro plans event hevent
      obtain ⟨plan, -, rfl⟩ := List.mem_map.mp hevent
      rfl
    have hcounts : ∀ counted groups placeholders : Nat,
        ∀ event ∈ [Event.clauseCompiled counted groups placeholders], event.isDetail = false := by
      intro _ _ _ event hevent
      rw [List.mem_singleton.mp hevent]
      rfl
    have htext : ∀ sql : String, ∀ event ∈ [Event.clauseText sql], event.isDetail = true := by
      intro sql event hevent
      rw [List.mem_singleton.mp hevent]
      rfl
    simp only [quiet_bind, quiet_ofExcept, quiet_pure, quiet_report (hconditions _),
      quiet_report (hcounts _ _ _), quiet_reportDetail (htext _)]

namespace Builder

/-- A builder that debugs, or one that does not. -/
def debugging (debug : Bool) (builder : Builder) : Builder :=
  { builder with debug }

/-- A builder in an environment. -/
def under (environment : Log.Environment) (builder : Builder) : Builder :=
  builder.debugging environment.debugging

variable (builder : Builder)

theorem quiet_clause (criteria : List Criterion) :
    ((builder.debugging true).clause criteria).quiet
      = (builder.debugging false).clause criteria :=
  Where.quiet_compileTraced _ _

theorem quiet_built (sql : String) (kind : Built) : (built sql kind).quiet = built sql kind := rfl

/-- A selection is compared part by part: only its clause reports details. -/
theorem quiet_select (criteria : List Criterion) (projection : Projection)
    (order : Option String) (page : Page) :
    ((builder.debugging true).select criteria projection order page).quiet
      = (builder.debugging false).select criteria projection order page := by
  unfold select
  simp only [quiet_bind, quiet_ofExcept, quiet_clause, quiet_built]
  rfl

theorem quiet_count (criteria : List Criterion) :
    ((builder.debugging true).count criteria).quiet
      = (builder.debugging false).count criteria := by
  unfold count
  simp only [quiet_bind, quiet_ofExcept, quiet_clause, quiet_built]
  rfl

theorem quiet_delete (criteria : List Criterion) (page : Page) :
    ((builder.debugging true).delete criteria page).quiet
      = (builder.debugging false).delete criteria page := by
  unfold delete
  simp only [quiet_bind, quiet_ofExcept, quiet_clause, quiet_built]
  rfl

/-- An update that is refused for want of assignments reports nothing in either case. -/
theorem quiet_update (criteria : List Criterion) (assignments : List Assignment) (page : Page) :
    ((builder.debugging true).update criteria assignments page).quiet
      = (builder.debugging false).update criteria assignments page := by
  unfold update
  split
  · rfl
  · simp only [quiet_bind, quiet_ofExcept, quiet_clause, quiet_built]
    rfl

/-- An insertion has no criteria, so it reports no details. -/
theorem quiet_insert (assignments : List Assignment) :
    (builder.insert assignments).quiet = builder.insert assignments := by
  unfold insert
  split
  · rfl
  · simp only [quiet_bind, quiet_ofExcept, quiet_built]

theorem quiet_insertRows (rows : List (List Assignment)) :
    (builder.insertRows rows).quiet = builder.insertRows rows := by
  unfold insertRows
  dsimp only
  split
  · rfl
  · simp only [quiet_bind, quiet_ofExcept, quiet_built]

end Builder

/-- A statement has the same text, and reports the same of itself. -/
theorem Command.quiet_build (builder : Builder) (command : Command) :
    (command.build (builder.debugging true)).quiet = command.build (builder.debugging false) := by
  cases command with
  | ofQuery query =>
    cases query with
    | select criteria projection order page => exact builder.quiet_select _ _ _ _
    | count criteria => exact builder.quiet_count _
    | update criteria assignments page => exact builder.quiet_update _ _ _
    | delete criteria page => exact builder.quiet_delete _ _
    | insert assignments => exact Builder.quiet_insert (builder.debugging true) _
  | insertRows rows => exact Builder.quiet_insertRows (builder.debugging true) _

/-! ## Requests -/

section Requests

variable {σ : Type}

/-- A delivery without the details that were reported. -/
def Delivery.quiet (delivery : Delivery σ) : Delivery σ :=
  ⟨delivery.statement, delivery.trace.quiet⟩

/-- The calls that a request is about to make, which are none where something is wrong
with it. -/
def Request.ready (builder : Builder) (request : Request) : List Call :=
  match request.verdict builder with
  | .ok plans => request.calls plans
  | .error _ => []

/-- Calls for criteria and assignments are reported by name, and those for a page are not. -/
theorem Call.map_boundName?_details (calls : List Call) :
    (calls.flatMap details).map Event.boundName?
      = (calls.filter fun call => call.origin ≠ .page).map fun call =>
          some call.binding.name := by
  induction calls with
  | nil => rfl
  | cons call rest ih =>
    rw [List.flatMap_cons, List.map_append, ih]
    obtain ⟨origin, binding⟩ := call
    cases origin <;> rfl

variable [Prepared σ]

/-- A row of calls, made quiet, is the same row with debugging off, call by call. -/
theorem quiet_deliver : ∀ (calls : List Call) (statement : σ),
    (deliver true calls statement).quiet = deliver false calls statement := by
  intro calls
  induction calls with
  | nil => intro statement; rfl
  | cons call rest ih =>
    intro statement
    have hdetails : call.details.filter (fun event => !event.isDetail) = [] :=
      filter_details fun _ => Call.isDetail_of_mem
    rcases hbind : Prepared.bind statement call.binding with ⟨next, fault | _⟩
    · rw [deliver_of_refused hbind, deliver_of_refused hbind]
      show Delivery.mk next ⟨List.filter _ call.details, _⟩ = _
      rw [hdetails]
      rfl
    · rw [deliver_of_taken hbind, deliver_of_taken hbind, ← ih next]
      show Delivery.mk _ ⟨List.filter _ (call.details ++ _), _⟩ = _
      rw [List.filter_append, hdetails]
      rfl

/-- A request hands over the same, and what it reports with debugging off is what is left of it. -/
theorem Request.quiet_bind (builder : Builder) (request : Request) (statement : σ) :
    (request.bind (builder.debugging true) statement).quiet
      = request.bind (builder.debugging false) statement := by
  -- What is looked at beforehand does not depend on debugging.
  have hverdict : request.verdict (builder.debugging true)
      = request.verdict (builder.debugging false) := rfl
  rw [bind_eq, bind_eq, hverdict]
  cases request.verdict (builder.debugging false) with
  | error fault => rfl
  | ok plans => exact quiet_deliver _ _

/-- Listening to a request changes nothing. -/
theorem Request.unheard_bind (builder : Builder) (request : Request) (statement : σ)
    {heard : List Binding} :
    (request.bind builder (⟨statement, heard⟩ : Overheard σ)).unheard
      = request.bind builder statement := by
  rw [bind_eq, bind_eq]
  cases request.verdict builder with
  | error fault => rfl
  | ok plans => exact unheard_deliver _ _ _ _

/-- **Calls and their details.** What was made are the first calls of the row, and each of
them was reported before it was made. -/
theorem deliver_reports : ∀ (calls : List Call) (statement : σ) (heard : List Binding),
    ∃ attempted, attempted <+: calls ∧
      (deliver true calls (⟨statement, heard⟩ : Overheard σ)).statement.heard
        = heard ++ attempted.map Call.binding ∧
      (deliver true calls statement).trace.events = attempted.flatMap Call.details := by
  intro calls
  induction calls with
  | nil =>
    intro statement heard
    exact ⟨[], List.prefix_rfl, (List.append_nil heard).symm, rfl⟩
  | cons call rest ih =>
    intro statement heard
    rcases hbind : Prepared.bind statement call.binding with ⟨next, fault | _⟩
    · rw [deliver_of_refused hbind, deliver_of_refused (bind_overheard hbind heard)]
      exact ⟨[call], List.prefix_append [call] rest, rfl, (List.append_nil call.details).symm⟩
    · obtain ⟨attempted, hprefix, hheard, hevents⟩ := ih next (heard ++ [call.binding])
      rw [deliver_of_taken hbind, deliver_of_taken (bind_overheard hbind heard)]
      refine ⟨call :: attempted, (List.prefix_cons_inj call).mpr hprefix, ?_, ?_⟩
      · exact hheard.trans (List.append_cons heard call.binding _).symm
      · rw [hevents]
        rfl

/-- A request reports the names that it hands over for criteria and assignments. -/
theorem Request.reports {builder : Builder} (hdebug : builder.debug = true) (request : Request)
    (statement : σ) :
    ∃ attempted, attempted <+: request.ready builder ∧
      (request.bind builder (Overheard.of statement)).statement.heard
        = attempted.map Call.binding ∧
      (request.bind builder statement).trace.events.map Event.boundName?
        = (attempted.filter fun call => call.origin ≠ .page).map fun call =>
            some call.binding.name := by
  rw [bind_eq, bind_eq, ready, hdebug]
  cases request.verdict builder with
  | error fault => exact ⟨[], List.prefix_rfl, rfl, rfl⟩
  | ok plans =>
    obtain ⟨attempted, hprefix, hheard, hevents⟩ :=
      deliver_reports (request.calls plans) statement []
    refine ⟨attempted, hprefix, hheard, ?_⟩
    dsimp only
    rw [hevents]
    exact Call.map_boundName?_details attempted

end Requests

/-! ## Sessions -/

/-- A call on a builder: to compile criteria, to build a statement, or to bind. -/
inductive Operation where
  | compile (criteria : List Criterion)
  | build (command : Command)
  | bind (request : Request)

/-- What a call answers when nothing goes wrong. -/
inductive Answer where
  | clause (clause : Where)
  | text (sql : String)
  | bound

/-- What came of a call, with what was reported, and the statement after it. -/
structure Step (σ : Type) where
  trace : Trace Answer
  statement : σ

namespace Step

variable {σ : Type}

/-- The answer to a call, or the fault in its place. -/
def answer (step : Step σ) : Except Fault Answer := step.trace.result

/-- The events that were reported during a call. -/
def events (step : Step σ) : List Event := step.trace.events

/-- A step without the details that were reported. -/
def quiet (step : Step σ) : Step σ :=
  ⟨step.trace.quiet, step.statement⟩

/-- The events of quiet steps are those of the steps, without the details. -/
theorem flatMap_events_quiet (steps : List (Step σ)) :
    (steps.map quiet).flatMap events
      = (steps.flatMap events).filter fun event => event.message ∉ Event.detailMessages := by
  have hkept : (fun event : Event => !event.isDetail)
      = fun event => decide (event.message ∉ Event.detailMessages) := by
    funext event
    rw [event.isDetail_eq, decide_not]
  rw [List.flatMap_map, List.filter_flatMap, ← hkept]
  rfl

end Step

section Sessions

variable {σ : Type} [Prepared σ]

/-- Makes a call. Only binding hands anything to the statement. -/
def Operation.run (builder : Builder) : Operation → σ → Step σ
  | compile criteria, statement => ⟨.clause <$> builder.clause criteria, statement⟩
  | build command, statement => ⟨.text <$> command.build builder, statement⟩
  | bind request, statement =>
    let delivery := request.bind builder statement
    ⟨(fun _ => .bound) <$> delivery.trace, delivery.statement⟩

/-- Makes calls one after the other, whatever came of those before. -/
def Builder.session (builder : Builder) : List Operation → σ → List (Step σ)
  | [], _ => []
  | operation :: rest, statement =>
    let step := operation.run builder statement
    step :: session builder rest step.statement

/-- A call leaves the same statement behind and answers alike, with debugging on or off. -/
theorem Operation.quiet_run (builder : Builder) (operation : Operation) (statement : σ) :
    (operation.run (builder.debugging true) statement).quiet
      = operation.run (builder.debugging false) statement := by
  cases operation with
  | compile criteria =>
    show Step.mk (quiet (_ <$> _)) statement = _
    rw [quiet_map, Builder.quiet_clause]
    rfl
  | build command =>
    show Step.mk (quiet (_ <$> _)) statement = _
    rw [quiet_map, Command.quiet_build]
    rfl
  | bind request =>
    show Step.mk (quiet (_ <$> _)) _ = _
    rw [quiet_map]
    -- The delivery is compared as a whole: its trace and its statement.
    show (fun delivery : Delivery σ => Step.mk ((fun _ => Answer.bound) <$> delivery.trace)
      delivery.statement) (request.bind (builder.debugging true) statement).quiet = _
    rw [Request.quiet_bind]
    rfl

/-- **Step by step.** A session with debugging on, made quiet, is the one with debugging off. -/
theorem Builder.quiet_session (builder : Builder) : ∀ (operations : List Operation)
    (statement : σ),
      ((builder.debugging true).session operations statement).map Step.quiet
        = (builder.debugging false).session operations statement := by
  intro operations
  induction operations with
  | nil => intro statement; rfl
  | cons operation rest ih =>
    intro statement
    -- The next call finds the same statement, since making a step quiet keeps it.
    have hstatement : (operation.run (builder.debugging true) statement).statement
        = (operation.run (builder.debugging false) statement).statement := by
      rw [← operation.quiet_run]
      rfl
    unfold session
    rw [List.map_cons, operation.quiet_run, hstatement, ih]

/-- **Debugging only adds events.** A row of calls is answered alike with debugging on and
off, and the statement is the same after each of them. The events with debugging off are
those with debugging on without the ones that show a clause or a name that is bound. With
debugging on, what a request reports are the names of the calls that the statement was
handed for criteria and assignments, in their order, and it reports nothing else. -/
theorem Builder.debugging_only_reports {on off : Log.Environment} (hon : on.debugging = true)
    (hoff : off.debugging = false) (builder : Builder) (operations : List Operation)
    (statement : σ) :
    let shown := (builder.under on).session operations statement
    let hidden := (builder.under off).session operations statement
    hidden.map Step.answer = shown.map Step.answer ∧
      hidden.map Step.statement = shown.map Step.statement ∧
      hidden.flatMap Step.events = (shown.flatMap Step.events).filter (fun event =>
        event.message ∉ Event.detailMessages) ∧
      ∀ (request : Request) (statement : σ),
        (request.bind (builder.under on) (Overheard.of statement)).unheard
            = request.bind (builder.under on) statement ∧
          ∃ attempted, attempted <+: request.ready (builder.under on) ∧
            (request.bind (builder.under on) (Overheard.of statement)).statement.heard
              = attempted.map Call.binding ∧
            (request.bind (builder.under on) statement).trace.events.map Event.boundName?
              = (attempted.filter fun call => call.origin ≠ .page).map fun call =>
                  some call.binding.name := by
  unfold under
  rw [hon, hoff, ← quiet_session builder operations statement]
  refine ⟨?_, ?_, Step.flatMap_events_quiet _, fun request statement => ⟨?_, ?_⟩⟩
  · rw [List.map_map]
    rfl
  · rw [List.map_map]
    rfl
  · exact request.unheard_bind _ statement
  · exact request.reports rfl statement

end Sessions

/-- A statement that refuses one name and records what it is handed under any other. -/
structure Picky where
  refused : String
  recorder : Recorder := {}

instance : Prepared Picky where
  bind picky binding :=
    if binding.name = picky.refused then (picky, .error (.of (.bindRefused binding.name "no")))
    else ({ picky with recorder := picky.recorder.record binding }, .ok ())

/-- Two conditions whose values are bound. -/
def twoBound : List Criterion :=
  [{ column := "a", value := some (.int 1) }, { column := "b", value := some (.int 2) }]

theorem Builder.debugging_only_reports_picky :
    let on : Log.Environment := { debug := some "YES" }
    let off : Log.Environment := {}
    let picky : Picky := { refused := ":b2" }
    let request : Request := .values twoBound [] { limit := 5 }
    let operations : List Operation := [.compile twoBound, .bind request]
    let shown := (Builder.under on {}).session operations picky
    let hidden := (Builder.under off {}).session operations picky
    on.debugging = true ∧ off.debugging = false ∧
      hidden.map Step.answer = shown.map Step.answer ∧
      hidden.map Step.statement = shown.map Step.statement ∧
      (shown.flatMap Step.events).map Event.message
        = ["compiled criterion", "compiled criterion", "compiled WHERE clause",
            "WHERE clause text", "binding criterion value", "binding criterion value"] ∧
      hidden.flatMap Step.events = (shown.flatMap Step.events).filter (fun event =>
        event.message ∉ Event.detailMessages) ∧
      ∃ attempted, attempted <+: request.ready (Builder.under on {}) ∧
        (request.bind (Builder.under on {}) (Overheard.of picky)).statement.heard
          = attempted.map Call.binding ∧
        (request.bind (Builder.under on {}) picky).trace.events.map Event.boundName?
          = (attempted.filter fun call => call.origin ≠ .page).map fun call =>
              some call.binding.name := by
  have hon : Log.Environment.debugging { debug := some "YES" } = true := by decide
  have hoff : Log.Environment.debugging {} = false := by decide
  obtain ⟨hanswers, hstatements, hevents, hrequests⟩ :=
    Builder.debugging_only_reports hon hoff {}
      [.compile twoBound, .bind (.values twoBound [] { limit := 5 })]
      ({ refused := ":b2" } : Picky)
  exact ⟨hon, hoff, hanswers, hstatements, rfl, hevents, (hrequests _ _).2⟩

end BoundSql
