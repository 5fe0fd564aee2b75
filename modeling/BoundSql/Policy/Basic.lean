import BoundSql.Fault

/-!
# Operator policies

Which operators a criteria list may use, and which are meant where it names
none. A policy can be written down with defaults that it does not allow; only
a `SoundPolicy` is free of that, and `Policy.check` finds out. Under a sound
policy leaving an operator out never gets around the allowed sets.
-/

namespace BoundSql

/-- The operators that criteria may use, and the ones meant where none is named. -/
structure Policy where
  comparison : Comparison := .equal
  connective : Connective := .and
  allowedComparisons : List Comparison := Comparison.all
  allowedConnectives : List Connective := Connective.all
  deriving DecidableEq, Repr, Inhabited

namespace Policy

/-- Whether both defaults are themselves allowed. -/
def Sound (policy : Policy) : Prop :=
  policy.comparison ∈ policy.allowedComparisons ∧ policy.connective ∈ policy.allowedConnectives

instance (policy : Policy) : Decidable policy.Sound :=
  inferInstanceAs (Decidable (_ ∧ _))

end Policy

/-- A policy whose defaults are allowed. -/
structure SoundPolicy where
  policy : Policy
  sound : policy.Sound

instance : Inhabited SoundPolicy := ⟨⟨{}, by decide⟩⟩

namespace Policy

/-- The fault of a policy that is not sound: its comparison is looked at first. -/
def unsoundness (policy : Policy) : Fault :=
  if policy.comparison ∉ policy.allowedComparisons then
    .of (.invalidPolicy ("Default comparison operator '" ++ policy.comparison.sql
      ++ "' is not in the allowed set"))
  else
    .of (.invalidPolicy ("Default logical operator '" ++ policy.connective.sql
      ++ "' is not in the allowed set"))

/-- Accepts a policy whose defaults are allowed. -/
def check (policy : Policy) : Except Fault SoundPolicy :=
  if h : policy.Sound then .ok ⟨policy, h⟩ else .error policy.unsoundness

end Policy

end BoundSql
