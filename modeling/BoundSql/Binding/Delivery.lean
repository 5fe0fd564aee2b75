import BoundSql.Binding.Recorder
import BoundSql.Clause.Page
import BoundSql.Where

/-!
# Delivering bindings

How the values of a statement reach a prepared statement. What is to be bound
is first worked out in full, as a list of calls, so a fault in the input
leaves the statement untouched. Then the calls are made in their order, up to
the first that is refused. The criteria come from the same plans as the text
of the clause, and the assignments from the same placeholders as the text of
the statement.
-/

namespace BoundSql

/-- What a binding stands for. -/
inductive Origin where
  | criterion
  | assignment
  | page
  deriving DecidableEq, Repr

/-- A binding to be made. -/
structure Call where
  origin : Origin
  binding : Binding

namespace Call

/-- What is reported of a call just before it is made. -/
def details (call : Call) : List Event :=
  match call.origin with
  | .criterion => [.criterionBound call.binding.name call.binding.kind]
  | .assignment => [.assignmentBound call.binding.name]
  | .page => []

/-- The calls for planned criteria. -/
def ofPlans (plans : List Plan) : List Call :=
  (plans.flatMap Plan.slots).map (Call.mk .criterion)

/-- The binding of an assignment, which in a batch carries its row. -/
def assignmentBinding (row : Option Nat) (assignment : Assignment) : Binding :=
  ⟨Placeholder.ofAssignment assignment.column row, assignment.value, assignment.kind⟩

/-- The calls for the bound ones of some assignments. -/
def ofAssignments (row : Option Nat) (assignments : List Assignment) : List Call :=
  (assignments.filter Assignment.bound).map fun assignment =>
    ⟨.assignment, assignmentBinding row assignment⟩

/-- The calls for the rows of a batch, which are counted from 0. -/
def ofRows (rows : List (List Assignment)) : List Call :=
  rows.zipIdx.flatMap fun (row, index) => ofAssignments (some index) row

/-- The calls for a page. -/
def ofPage (page : Page) : List Call :=
  page.bindings.map (Call.mk .page)

end Call

/-- A statement after some calls, with what was reported and whether all were taken. -/
structure Delivery (σ : Type) where
  statement : σ
  trace : Trace Unit

namespace Delivery

variable {σ : Type}

/-- Nothing is delivered, because of a fault or because there is nothing. -/
def nothing (result : Except Fault Unit) (statement : σ) : Delivery σ :=
  ⟨statement, .ofExcept result⟩

/-- Goes on with the statement, unless a call was refused. -/
def andThen (first : Delivery σ) (next : σ → Delivery σ) : Delivery σ :=
  match first.trace.result with
  | .ok () =>
    let second := next first.statement
    ⟨second.statement, ⟨first.trace.events ++ second.trace.events, second.trace.result⟩⟩
  | .error _ => first

/-- What is delivered in three parts can be put together from either end. -/
theorem andThen_assoc (first : Delivery σ) (second third : σ → Delivery σ) :
    (first.andThen second).andThen third
      = first.andThen fun statement => (second statement).andThen third := by
  obtain ⟨statement, events, result⟩ := first
  cases result with
  | error _ => rfl
  | ok _ =>
    cases h : (second statement).trace.result with
    | error _ => simp [andThen, h]
    | ok _ => simp [andThen, h]

/-- To deliver nothing first makes no difference. -/
theorem nothing_andThen (next : σ → Delivery σ) (statement : σ) :
    (nothing (.ok ()) statement).andThen next = next statement := by
  simp [nothing, andThen, Trace.ofExcept]

end Delivery

section

variable {σ : Type} [Prepared σ]

/-- Makes calls in their order, up to the first that is refused. -/
def deliver (debug : Bool) : List Call → σ → Delivery σ
  | [], statement => .nothing (.ok ()) statement
  | call :: rest, statement =>
    let (statement, result) := Prepared.bind statement call.binding
    let made : Delivery σ := ⟨statement, ⟨if debug then call.details else [], result⟩⟩
    made.andThen (deliver debug rest)

/-- Calls in two parts are made one part after the other. -/
theorem deliver_append (debug : Bool) (first second : List Call) (statement : σ) :
    deliver debug (first ++ second) statement
      = (deliver debug first statement).andThen (deliver debug second) := by
  induction first generalizing statement with
  | nil => rw [List.nil_append, deliver, Delivery.nothing_andThen]
  | cons call rest ih =>
    simp only [List.cons_append, deliver, Delivery.andThen_assoc]
    exact congrArg _ (funext fun _ => ih _)

/-- Binds the values of a criteria list under a policy. -/
def bindCriteria (debug : Bool) (policy : Policy) (criteria : List Criterion) (statement : σ) :
    Delivery σ :=
  match planAll policy criteria with
  | .ok plans => deliver debug (Call.ofPlans plans) statement
  | .error fault => .nothing (.error fault) statement

/-- Binds the values of assignments, which in a batch carry their row. -/
def bindAssignments (debug : Bool) (row : Option Nat) (assignments : List Assignment)
    (statement : σ) : Delivery σ :=
  deliver debug (Call.ofAssignments row assignments) statement

/-- Binds the values of the rows of a batch. -/
def bindRows (debug : Bool) (rows : List (List Assignment)) (statement : σ) : Delivery σ :=
  deliver debug (Call.ofRows rows) statement

/-- Binds the numbers of a page. -/
def bindPage (debug : Bool) (page : Page) (statement : σ) : Delivery σ :=
  deliver debug (Call.ofPage page) statement

end

end BoundSql
