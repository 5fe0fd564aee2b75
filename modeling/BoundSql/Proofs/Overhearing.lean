import BoundSql.Proofs.Recording
import BoundSql.Proofs.Statements

/-!
# The calls that a statement gets

A prepared statement can refuse any binding with any fault, and whoever binds
to it sees only what comes of it in the end. To see the calls themselves the
statement is `Overheard`: it behaves as before, and every binding that it was
handed is written down, taken or refused.

What the library does with any `Request` to bind can then be said in one way:

> `Request.bind_makes_planned`: a request that does not pass its checks, or
> whose criteria cannot be planned, makes no call at all. Any other makes the
> bindings of its clause, then those of its assignments, then those of its
> page, up to and including the first that is refused.

The fact that carries this is `Request.bind_eq`: all that is checked is checked
before the first call, so a request is either nothing or one row of calls. A
row of calls is then followed call by call (`deliver_makes`).
-/

namespace BoundSql

variable {σ : Type}

/-! ## Overhearing -/

/-- A prepared statement with every binding that it was handed, taken or refused. -/
structure Overheard (σ : Type) where
  statement : σ
  heard : List Binding

/-- A statement that was handed nothing yet. -/
def Overheard.of (statement : σ) : Overheard σ := ⟨statement, []⟩

/-- The delivery as it looks to one who does not listen. -/
def Delivery.unheard (delivery : Delivery (Overheard σ)) : Delivery σ :=
  ⟨delivery.statement.statement, delivery.trace⟩

variable [Prepared σ]

instance : Prepared (Overheard σ) where
  bind overheard binding :=
    let (statement, result) := Prepared.bind overheard.statement binding
    (⟨statement, overheard.heard ++ [binding]⟩, result)

/-- Who listens to a statement hears the binding, taken or not, and sees what comes of it. -/
theorem bind_overheard {statement next : σ} {binding : Binding} {result : Except Fault Unit}
    (h : Prepared.bind statement binding = (next, result)) (heard : List Binding) :
    Prepared.bind (⟨statement, heard⟩ : Overheard σ) binding
      = (⟨next, heard ++ [binding]⟩, result) := by
  show (let (statement, result) := Prepared.bind statement binding
    ((⟨statement, heard ++ [binding]⟩ : Overheard σ), result)) = _
  rw [h]

/-- A statement takes some bindings, one after the other. -/
inductive Takes : σ → List Binding → σ → Prop where
  | nothing (statement : σ) : Takes statement [] statement
  | next {statement middle final : σ} {binding : Binding} {rest : List Binding}
      (taken : Prepared.bind statement binding = (middle, .ok ()))
      (others : Takes middle rest final) : Takes statement (binding :: rest) final

/-- Which of the planned bindings are handed to a statement, what becomes of it, and how
that ends: all are where none is refused, and otherwise those up to and including the
first that is, whose fault is the result. -/
inductive Makes (planned : List Binding) (statement : σ) :
    List Binding → σ → Except Fault Unit → Prop where
  | all {final : σ} (taken : Takes statement planned final) :
      Makes planned statement planned final (.ok ())
  | upTo {front back : List Binding} {binding : Binding} {middle final : σ} {fault : Fault}
      (split : planned = front ++ binding :: back) (taken : Takes statement front middle)
      (refused : Prepared.bind middle binding = (final, .error fault)) :
      Makes planned statement (front ++ [binding]) final (.error fault)

/-- A binding that is taken comes before all that is made after it. -/
theorem Makes.next {statement middle final : σ} {binding : Binding} {rest made : List Binding}
    {result : Except Fault Unit} (taken : Prepared.bind statement binding = (middle, .ok ()))
    (h : Makes rest middle made final result) :
    Makes (binding :: rest) statement (binding :: made) final result := by
  cases h with
  | all others => exact .all (.next taken others)
  | upTo split others refused =>
    exact .upTo (by rw [split, List.cons_append]) (.next taken others) refused

/-! ## A row of calls -/

/-- A call that is taken is followed by the others. -/
theorem deliver_of_taken {debug : Bool} {call : Call} {rest : List Call} {statement next : σ}
    (h : Prepared.bind statement call.binding = (next, .ok ())) :
    deliver debug (call :: rest) statement
      = ⟨(deliver debug rest next).statement,
          ⟨(if debug then call.details else []) ++ (deliver debug rest next).trace.events,
            (deliver debug rest next).trace.result⟩⟩ := by
  rw [deliver, h]
  rfl

/-- A call that is refused is the last. -/
theorem deliver_of_refused {debug : Bool} {call : Call} {rest : List Call} {statement next : σ}
    {fault : Fault} (h : Prepared.bind statement call.binding = (next, .error fault)) :
    deliver debug (call :: rest) statement
      = ⟨next, ⟨if debug then call.details else [], .error fault⟩⟩ := by
  rw [deliver, h]
  rfl

/-- Listening changes nothing. -/
theorem unheard_deliver (debug : Bool) : ∀ (calls : List Call) (statement : σ)
    (heard : List Binding),
      (deliver debug calls (⟨statement, heard⟩ : Overheard σ)).unheard
        = deliver debug calls statement := by
  intro calls
  induction calls with
  | nil => intro statement heard; rfl
  | cons call rest ih =>
    intro statement heard
    rcases hbind : Prepared.bind statement call.binding with ⟨next, fault | _⟩
    · rw [deliver_of_refused hbind, deliver_of_refused (bind_overheard hbind heard)]
      rfl
    · rw [deliver_of_taken hbind, deliver_of_taken (bind_overheard hbind heard), ← ih next]
      rfl

/-- **A row of calls** is made up to the first that is refused. -/
theorem deliver_makes (debug : Bool) : ∀ (calls : List Call) (statement : σ)
    (heard : List Binding), ∃ made,
      (deliver debug calls (⟨statement, heard⟩ : Overheard σ)).statement.heard = heard ++ made ∧
        Makes (calls.map Call.binding) statement made (deliver debug calls statement).statement
          (deliver debug calls statement).trace.result := by
  intro calls
  induction calls with
  | nil =>
    intro statement heard
    exact ⟨[], (List.append_nil heard).symm, .all (.nothing statement)⟩
  | cons call rest ih =>
    intro statement heard
    rcases hbind : Prepared.bind statement call.binding with ⟨next, fault | _⟩
    -- What is refused was heard as well, and nothing is made after it.
    · rw [deliver_of_refused hbind, deliver_of_refused (bind_overheard hbind heard)]
      have hsplit : (call :: rest).map Call.binding
          = [] ++ call.binding :: rest.map Call.binding := rfl
      exact ⟨[call.binding], rfl, .upTo hsplit (.nothing statement) hbind⟩
    · obtain ⟨made, hheard, hmakes⟩ := ih next (heard ++ [call.binding])
      rw [deliver_of_taken hbind, deliver_of_taken (bind_overheard hbind heard)]
      refine ⟨call.binding :: made, ?_, hmakes.next hbind⟩
      exact hheard.trans (List.append_cons heard call.binding made).symm

/-- Hands over bindings one by one, as a caller would who has them in a list. -/
def bindEach : List Binding → σ → σ × Except Fault Unit
  | [], statement => (statement, .ok ())
  | binding :: rest, statement =>
    match Prepared.bind statement binding with
    | (next, .ok ()) => bindEach rest next
    | (next, .error fault) => (next, .error fault)

/-- A row of calls is nothing but its bindings, one by one. -/
theorem deliver_eq_bindEach (debug : Bool) : ∀ (calls : List Call) (statement : σ),
    ((deliver debug calls statement).statement, (deliver debug calls statement).trace.result)
      = bindEach (calls.map Call.binding) statement := by
  intro calls
  induction calls with
  | nil => intro statement; rfl
  | cons call rest ih =>
    intro statement
    rw [List.map_cons, bindEach]
    rcases hbind : Prepared.bind statement call.binding with ⟨next, fault | _⟩
    · rw [deliver_of_refused hbind]
    · rw [deliver_of_taken hbind]
      exact ih next

/-! ## Requests -/

namespace Assignment

/-- The bindings of the bound ones of some assignments: each under the name that is made of
its column, and in a batch of its row as well, and as text unless it says otherwise. -/
def bindings (row : Option Nat) (assignments : List Assignment) : List Binding :=
  (assignments.filter Assignment.bound).map fun assignment =>
    { name :=
        match row with
        | some row => ":" ++ Placeholder.stem assignment.column ++ toString row
        | none => ":" ++ Placeholder.stem assignment.column
      value := assignment.value
      kind := assignment.bindType.getD .text }

/-- The bindings of the rows of a batch, row by row. -/
def rowBindings (rows : List (List Assignment)) : List Binding :=
  rows.zipIdx.flatMap fun (row, index) => bindings (some index) row

/-- The names that are handed over are the placeholders that stand in the text. -/
theorem map_name_bindings (row : Option Nat) (assignments : List Assignment) :
    (bindings row assignments).map Binding.name = placeholders row assignments :=
  Call.map_name_assignmentBinding row assignments

theorem map_name_rowBindings (rows : List (List Assignment)) :
    (rowBindings rows).map Binding.name = rowPlaceholders rows := by
  unfold rowBindings rowPlaceholders
  rw [List.map_flatMap]
  congr 1
  funext entry
  exact map_name_bindings (some entry.2) entry.1

end Assignment

/-- The calls for assignments are made of their bindings. -/
theorem Call.ofAssignments_eq (row : Option Nat) (assignments : List Assignment) :
    ofAssignments row assignments
      = (Assignment.bindings row assignments).map (Call.mk .assignment) := by
  unfold ofAssignments Assignment.bindings
  rw [List.map_map]
  rfl

theorem Call.ofRows_eq (rows : List (List Assignment)) :
    ofRows rows = (Assignment.rowBindings rows).map (Call.mk .assignment) := by
  unfold ofRows Assignment.rowBindings
  rw [List.map_flatMap]
  congr 1
  funext entry
  exact ofAssignments_eq (some entry.2) entry.1

/-- What the library can be asked to bind: criteria, assignments of one row or of none, a
page, or all that a statement or a batch expects. -/
inductive Request where
  | ofCriteria (criteria : List Criterion)
  | ofAssignments (row : Option Nat) (assignments : List Assignment)
  | ofPage (page : Page)
  | values (criteria : List Criterion) (assignments : List Assignment) (page : Page)
  | batch (criteria : List Criterion) (rows : List (List Assignment)) (page : Page)

namespace Request

/-- Binds what is asked for. -/
def bind (builder : Builder) : Request → σ → Delivery σ
  | ofCriteria criteria => bindCriteria builder.debug builder.policy.policy criteria
  | ofAssignments row assignments => bindAssignments builder.debug row assignments
  | ofPage page => bindPage builder.debug page
  | values criteria assignments page => builder.bindValues criteria assignments page
  | batch criteria rows page => builder.bindBatch criteria rows page

/-- The criteria of a request. -/
def criteria : Request → List Criterion
  | ofCriteria criteria | values criteria _ _ | batch criteria _ _ => criteria
  | _ => []

/-- The bindings of the assignments of a request. -/
def assigned : Request → List Binding
  | ofAssignments row assignments => Assignment.bindings row assignments
  | values _ assignments _ => Assignment.bindings none assignments
  | batch _ rows _ => Assignment.rowBindings rows
  | _ => []

/-- The page of a request. -/
def page : Request → Page
  | ofPage page | values _ _ page | batch _ _ page => page
  | _ => {}

/-- What is looked at before the criteria: the rows of a batch, and nothing else. -/
def check : Request → Except Fault Unit
  | batch _ rows _ =>
    if rows.isEmpty then .error (.of (.emptyAssignments "batchBindValues"))
    else Builder.checkRows "batchBindValues" rows
  | _ => .ok ()

/-- The rows of a batch go together and share no placeholder. -/
def Fits : Request → Prop
  | batch _ rows _ =>
    rows ≠ [] ∧ Assignment.SameColumns rows ∧ (Assignment.rowPlaceholders rows).Nodup
  | _ => True

/-- The first thing that is wrong with a request, or the plans of its criteria. -/
def verdict (builder : Builder) (request : Request) : Except Fault (List Plan) :=
  request.check.bind fun _ => planAll builder.policy.policy request.criteria

/-- The calls that a request comes down to. -/
def calls (request : Request) (plans : List Plan) : List Call :=
  Call.ofPlans plans
    ++ (request.assigned.map (Call.mk .assignment) ++ Call.ofPage request.page)

/-- The check lets through the requests that fit. -/
theorem check_eq_ok_iff {request : Request} : request.check = .ok () ↔ request.Fits := by
  cases request with
  | batch criteria rows page =>
    rw [check, Fits]
    cases rows with
    | nil =>
      constructor
      · intro h
        cases h
      · intro hparts
        obtain ⟨hne, -⟩ := hparts
        exact absurd rfl hne
    | cons first rest =>
      rw [List.isEmpty_cons, if_neg Bool.false_ne_true, Builder.checkRows_eq_ok_iff,
        and_iff_right (List.cons_ne_nil first rest)]
  | _ => exact ⟨fun _ => trivial, fun _ => rfl⟩

/-- **Checks come first.** A request is refused before any call, or it is one row of calls. -/
theorem bind_eq (builder : Builder) (request : Request) (statement : σ) :
    request.bind builder statement
      = match request.verdict builder with
        | .error fault => .nothing (.error fault) statement
        | .ok plans => deliver builder.debug (request.calls plans) statement := by
  unfold verdict calls
  cases request with
  | ofCriteria criteria =>
    dsimp only [Request.bind, check, Request.criteria, Except.bind]
    unfold bindCriteria
    cases planAll builder.policy.policy criteria with
    | error fault => rfl
    | ok plans =>
      -- Behind the criteria come the assignments and the page of nobody.
      show deliver _ _ _ = deliver _ (Call.ofPlans plans ++ []) _
      rw [List.append_nil]
  | ofAssignments row assignments =>
    show deliver _ _ _ = deliver _ (_ ++ []) _
    rw [List.append_nil, Call.ofAssignments_eq]
    rfl
  | ofPage page => rfl
  | values criteria assignments page =>
    show builder.bindValues criteria assignments page statement = _
    unfold Builder.bindValues bindAssignments
    rw [bindCriteria_andThen, Call.ofAssignments_eq]
    rfl
  | batch criteria rows page =>
    show builder.bindBatch criteria rows page statement = _
    unfold Builder.bindBatch bindRows check
    cases rows with
    | nil => rfl
    | cons first rest =>
      rw [bindCriteria_andThen, Call.ofRows_eq]
      dsimp only [List.isEmpty_cons]
      cases Builder.checkRows "batchBindValues" (first :: rest) <;> rfl

/-- The bindings of the calls are those of the criteria, the assignments and the page. -/
theorem map_binding_calls (request : Request) (plans : List Plan) :
    (request.calls plans).map Call.binding
      = plans.flatMap Plan.slots ++ request.assigned ++ request.page.bindings := by
  unfold calls Call.ofPlans Call.ofPage
  rw [List.map_append, List.map_append, Call.map_binding_map, Call.map_binding_map,
    Call.map_binding_map, List.append_assoc]

/-- Criteria that can be planned compile, and the clause expects the slots of the plans. -/
theorem compile_of_planAll {policy : Policy} {criteria : List Criterion} {plans : List Plan}
    (h : planAll policy criteria = .ok plans) :
    ∃ clause, Where.compile policy criteria = .ok clause ∧
      clause.bindings = plans.flatMap Plan.slots := by
  by_cases hne : criteria = []
  · subst hne
    cases h
    exact ⟨Where.empty, Where.compile_nil policy, rfl⟩
  · refine ⟨Where.ofPlans plans, ?_, rfl⟩
    rw [Where.compile_eq_map hne, h]
    rfl

/-- A request with nothing wrong makes its bindings, up to the first that is refused. -/
theorem bind_makes {builder : Builder} {request : Request} {plans : List Plan}
    (h : request.verdict builder = .ok plans) (statement : σ) :
    Makes (plans.flatMap Plan.slots ++ request.assigned ++ request.page.bindings) statement
      (request.bind builder (Overheard.of statement)).statement.heard
      (request.bind builder statement).statement
      (request.bind builder statement).trace.result := by
  obtain ⟨made, hheard, hmakes⟩ := deliver_makes builder.debug (request.calls plans) statement []
  rw [map_binding_calls] at hmakes
  rw [List.nil_append] at hheard
  rw [bind_eq, bind_eq, h]
  exact hheard ▸ hmakes

/-- **What a request hands over.** Listening to a request changes nothing. If it does not
pass its checks, or its criteria cannot be planned, it is refused for that fault before
anything was handed over or reported. Otherwise its criteria compile, and what it makes
are the bindings of the clause, then those of its assignments, row by row, then the numbers
of its page, up to the first that the statement refuses. To bind the criteria alone is to hand
over the bindings of the clause one by one. -/
theorem bind_makes_planned (builder : Builder) (request : Request) (statement : σ) :
    (request.bind builder (Overheard.of statement)).unheard = request.bind builder statement ∧
      (request.check = .ok () ↔ request.Fits) ∧
      match request.verdict builder with
      | .error fault =>
        request.bind builder (Overheard.of statement)
          = .nothing (.error fault) (Overheard.of statement)
      | .ok _ =>
        ∃ clause, Where.compile builder.policy.policy request.criteria = .ok clause ∧
          Makes (clause.bindings ++ request.assigned ++ request.page.numbers) statement
            (request.bind builder (Overheard.of statement)).statement.heard
            (request.bind builder statement).statement
            (request.bind builder statement).trace.result ∧
          bindEach clause.bindings statement
            = ((bindCriteria builder.debug builder.policy.policy request.criteria
                  statement).statement,
                (bindCriteria builder.debug builder.policy.policy request.criteria
                  statement).trace.result) := by
  have hunheard : (request.bind builder (Overheard.of statement)).unheard
      = request.bind builder statement := by
    rw [bind_eq, bind_eq]
    cases request.verdict builder with
    | error fault => rfl
    | ok plans => exact unheard_deliver _ _ _ _
  refine ⟨hunheard, check_eq_ok_iff, ?_⟩
  cases hverdict : request.verdict builder with
  | error fault =>
    dsimp only
    rw [bind_eq, hverdict]
  | ok plans =>
    obtain ⟨_, -, hplans⟩ := bind_eq_ok_iff.mp hverdict
    obtain ⟨clause, hclause, hbindings⟩ := compile_of_planAll hplans
    have hmakes := bind_makes hverdict statement
    rw [← hbindings, Page.bindings_eq_numbers] at hmakes
    refine ⟨clause, hclause, hmakes, ?_⟩
    -- The criteria alone are the first part of the same calls.
    have heach := deliver_eq_bindEach builder.debug (Call.ofPlans plans) statement
    have hslots : (Call.ofPlans plans).map Call.binding = clause.bindings := by
      rw [hbindings, Call.ofPlans, Call.map_binding_map]
    rw [bindCriteria, hplans]
    rw [hslots] at heach
    exact heach.symm

/-! ## The names of a request -/

/-- The names that a request hands over, in their order, when nothing is wrong with it. -/
def names (builder : Builder) (request : Request) : List String :=
  (request.calls (planned builder.policy.policy request.criteria)).map (·.binding.name)

/-- The names of a request are those of the criteria, the assignments and the page. -/
theorem names_eq (builder : Builder) (request : Request) :
    request.names builder
      = (planned builder.policy.policy request.criteria).flatMap Plan.names
        ++ request.assigned.map Binding.name ++ request.page.names := by
  have hbindings := congrArg (List.map Binding.name)
    (request.map_binding_calls (planned builder.policy.policy request.criteria))
  rw [List.map_map, List.map_append, List.map_append, List.map_flatMap,
    Page.map_name_bindings] at hbindings
  exact hbindings

theorem names_values (builder : Builder) (criteria : List Criterion)
    (assignments : List Assignment) (page : Page) :
    (values criteria assignments page).names builder
      = (planned builder.policy.policy criteria).flatMap Plan.names
        ++ Assignment.placeholders none assignments ++ page.names := by
  rw [names_eq, ← Assignment.map_name_bindings]
  rfl

theorem names_batch (builder : Builder) (criteria : List Criterion)
    (rows : List (List Assignment)) (page : Page) :
    (batch criteria rows page).names builder
      = (planned builder.policy.policy criteria).flatMap Plan.names
        ++ Assignment.rowPlaceholders rows ++ page.names := by
  rw [names_eq, ← Assignment.map_name_rowBindings]
  rfl

/-- A request that ends well has nothing wrong with it. -/
theorem exists_plans_of_ok {builder : Builder} {request : Request} {statement : σ}
    (h : (request.bind builder statement).trace.result = .ok ()) :
    ∃ plans, request.verdict builder = .ok plans := by
  rw [bind_eq] at h
  cases hverdict : request.verdict builder with
  | ok plans => exact ⟨plans, rfl⟩
  | error fault =>
    rw [hverdict] at h
    cases h

/-- A request that ends well has handed over all its bindings. -/
theorem heard_eq {builder : Builder} {request : Request} {plans : List Plan} {statement : σ}
    (hverdict : request.verdict builder = .ok plans)
    (h : (request.bind builder statement).trace.result = .ok ()) :
    (request.bind builder (Overheard.of statement)).statement.heard
      = plans.flatMap Plan.slots ++ request.assigned ++ request.page.bindings := by
  have hmakes := bind_makes hverdict statement
  rw [h] at hmakes
  generalize (request.bind builder (Overheard.of statement)).statement.heard = heard at hmakes
  cases hmakes with
  | all _ => rfl

/-- A request that ends well has criteria that are accepted, and has handed over its names. -/
theorem heard_of_ok {builder : Builder} {request : Request} {statement : σ}
    (h : (request.bind builder statement).trace.result = .ok ()) :
    request.Fits ∧ Accepted builder.policy.policy request.criteria ∧
      (request.bind builder (Overheard.of statement)).statement.heard.map Binding.name
        = request.names builder := by
  obtain ⟨plans, hverdict⟩ := exists_plans_of_ok h
  obtain ⟨_, hcheck, hplans⟩ := bind_eq_ok_iff.mp hverdict
  have hheard := heard_eq hverdict h
  obtain ⟨haccepted, rfl⟩ := planAll_eq_ok_iff.mp hplans
  refine ⟨check_eq_ok_iff.mp hcheck, haccepted, ?_⟩
  rw [hheard, names_eq, List.map_append, List.map_append, List.map_flatMap,
    Page.map_name_bindings]
  rfl

/-- Where no name is repeated a recorder has under each what was bound to it, and no other. -/
theorem recorded {builder : Builder} {request : Request} (hfits : request.Fits)
    (haccepted : Accepted builder.policy.policy request.criteria)
    (hnodup : (request.names builder).Nodup) :
    (request.bind builder ({} : Recorder)).trace.result = .ok () ∧
      (request.bind builder ({} : Recorder)).statement.names = request.names builder ∧
      ∀ binding ∈ request.assigned,
        (request.bind builder ({} : Recorder)).statement.get? binding.name
          = some ⟨binding.value, binding.kind⟩ := by
  have hverdict : request.verdict builder
      = .ok (planned builder.policy.policy request.criteria) :=
    bind_eq_ok_iff.mpr
      ⟨(), check_eq_ok_iff.mpr hfits, planAll_eq_ok_iff.mpr ⟨haccepted, rfl⟩⟩
  have hnames : ((request.calls (planned builder.policy.policy request.criteria)).map
      Call.binding).map Binding.name = request.names builder := by
    rw [List.map_map]
    rfl
  obtain ⟨hresult, hstatement⟩ := Recorder.deliver_eq builder.debug
    (request.calls (planned builder.policy.policy request.criteria)) {}
  rw [bind_eq, hverdict]
  refine ⟨hresult, ?_, fun binding hbinding => ?_⟩
  · dsimp only
    rw [hstatement, Recorder.names_foldl_record, hnames]
    · rfl
    · rw [hnames]
      exact hnodup
  · dsimp only
    rw [hstatement]
    refine Recorder.get?_foldl_record _ _ (hnames ▸ hnodup) binding ?_
    rw [map_binding_calls]
    exact List.mem_append_left _ (List.mem_append_right _ hbinding)

end Request

end BoundSql
