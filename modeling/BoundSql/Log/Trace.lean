import BoundSql.Fault
import BoundSql.Log.Event

/-!
# Traced results

A `Trace` is a result, or the fault in its place, with the events that were
reported on the way. A fault ends the work but keeps the events before it.
The two views `events` and `result` are described by one equation for each
operation, and nothing else need be known of how traces are put together.
-/

namespace BoundSql

/-- The events reported while something was worked out, and what came of it. -/
structure Trace (α : Type) where
  events : List Event
  result : Except Fault α

namespace Trace

variable {α β : Type}

/-- Goes on with a result, unless there is none. -/
def andThen (first : Trace α) (next : α → Trace β) : Trace β :=
  match first.result with
  | .ok value => ⟨first.events ++ (next value).events, (next value).result⟩
  | .error fault => ⟨first.events, .error fault⟩

instance : Monad Trace where
  pure value := ⟨[], .ok value⟩
  bind := andThen

instance : MonadExceptOf Fault Trace where
  throw fault := ⟨[], .error fault⟩
  tryCatch first handler :=
    match first.result with
    | .ok _ => first
    | .error fault => ⟨first.events ++ (handler fault).events, (handler fault).result⟩

/-- A result that was worked out without any event. -/
def ofExcept (result : Except Fault α) : Trace α := ⟨[], result⟩

/-- Reports events. -/
def report (events : List Event) : Trace Unit := ⟨events, .ok ()⟩

/-- Reports events that are left out unless debugging is on. -/
def reportDetail (debug : Bool) (events : List Event) : Trace Unit :=
  ⟨if debug then events else [], .ok ()⟩

@[simp] theorem events_pure (value : α) : (pure value : Trace α).events = [] := rfl

@[simp] theorem result_pure (value : α) : (pure value : Trace α).result = .ok value := rfl

@[simp] theorem events_ofExcept (result : Except Fault α) : (ofExcept result).events = [] := rfl

@[simp] theorem result_ofExcept (result : Except Fault α) :
    (ofExcept result).result = result := rfl

@[simp] theorem events_report (events : List Event) : (report events).events = events := rfl

@[simp] theorem result_report (events : List Event) : (report events).result = .ok () := rfl

@[simp] theorem result_reportDetail (debug : Bool) (events : List Event) :
    (reportDetail debug events).result = .ok () := rfl

@[simp] theorem events_reportDetail (debug : Bool) (events : List Event) :
    (reportDetail debug events).events = if debug then events else [] := rfl

/-- The result of a sequence does not depend on events. -/
@[simp] theorem result_bind (first : Trace α) (next : α → Trace β) :
    (first >>= next).result = first.result.bind fun value => (next value).result := by
  cases h : first.result <;> simp [bind, andThen, h, Except.bind]

/-- The events of a sequence are those of its parts, up to the first fault. -/
theorem events_bind (first : Trace α) (next : α → Trace β) :
    (first >>= next).events = first.events ++
      match first.result with
      | .ok value => (next value).events
      | .error _ => [] := by
  cases h : first.result <;> simp [bind, andThen, h]

end Trace

end BoundSql
