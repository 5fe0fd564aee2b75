import BoundSql.KeyedList
import BoundSql.Plan

/-!
# Prepared statements

A prepared statement is anything that takes bindings one by one and may refuse
each. A `Recorder` refuses nothing and keeps what it is given: one entry for
each name, in the order in which the names were first bound, with what was
bound last.
-/

namespace BoundSql

/-- A statement that takes a binding, or refuses it with a fault. -/
class Prepared (σ : Type) where
  bind : σ → Binding → σ × Except Fault Unit

/-- What is bound under a name. -/
structure Bound where
  value : Value
  kind : BindType
  deriving Inhabited

/-- The bindings that were made. -/
structure Recorder where
  bound : KeyedList Bound := ∅
  deriving Inhabited

namespace Recorder

/-- Keeps a binding. -/
def record (recorder : Recorder) (binding : Binding) : Recorder :=
  ⟨recorder.bound.insert binding.name ⟨binding.value, binding.kind⟩⟩

instance : Prepared Recorder where
  bind recorder binding := (recorder.record binding, .ok ())

/-- What is bound under a name. -/
def get? (recorder : Recorder) (name : String) : Option Bound :=
  recorder.bound.get? name

/-- The number of names. -/
def size (recorder : Recorder) : Nat := recorder.bound.size

/-- Whether nothing was bound. -/
def isEmpty (recorder : Recorder) : Bool := recorder.bound.isEmpty

/-- The names in the order in which they were first bound. -/
def names (recorder : Recorder) : List String := recorder.bound.keys

/-- The bindings in the order of their names. -/
def bindings (recorder : Recorder) : List Binding :=
  recorder.bound.entries.map fun (name, bound) => ⟨name, bound.value, bound.kind⟩

/-- A name without the colon in front of it. -/
def bareName (name : String) : String :=
  match name.toList with
  | ':' :: rest => String.ofList rest
  | _ => name

/-- The values under their names without colons, in the order of the names. -/
def named (recorder : Recorder) : List (String × Value) :=
  recorder.bound.entries.map fun (name, bound) => (bareName name, bound.value)

/-- A name keeps its place when it is bound again, and a new name comes last. -/
theorem names_record (recorder : Recorder) (binding : Binding) :
    (recorder.record binding).names
      = if binding.name ∈ recorder.names then recorder.names
        else recorder.names ++ [binding.name] :=
  KeyedList.keys_insert recorder.bound binding.name ⟨binding.value, binding.kind⟩

/-- What was bound last under a name is what is found there. -/
theorem get?_record (recorder : Recorder) (binding : Binding) (name : String) :
    (recorder.record binding).get? name
      = if binding.name = name then some ⟨binding.value, binding.kind⟩
        else recorder.get? name :=
  KeyedList.get?_insert recorder.bound binding.name name ⟨binding.value, binding.kind⟩

end Recorder

end BoundSql
