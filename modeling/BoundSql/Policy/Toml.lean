import BoundSql.Policy.Basic
import BoundSql.Toml.Document

/-!
# Policies as TOML

A policy is the table `compiler` of a TOML document that holds nothing else.
It may be opened by a header, given entry by entry under dotted keys, or
given as one value, and in the last case also as an array of its settings in
their order. What is left out keeps its default. A setting must not be given
twice, and no other keys are accepted. Defaults and settings are put together
before the policy is checked for soundness.
-/

namespace BoundSql.Policy

/-- The settings of a policy, in their order. -/
inductive Setting where
  | comparison
  | connective
  | allowedComparisons
  | allowedConnectives
  deriving DecidableEq, Repr

namespace Setting

/-- Every setting. -/
def all : List Setting := [comparison, connective, allowedComparisons, allowedConnectives]

/-- The key of a setting. -/
def key : Setting → String
  | comparison => "default_comparison"
  | connective => "default_logical"
  | allowedComparisons => "allowed_comparisons"
  | allowedConnectives => "allowed_logicals"

end Setting

/-- Why a text gives no policy, apart from the check for soundness. -/
inductive Misfit where
  | notToml
  | unexpectedKey
  | repeatedKey (key : String)
  | wrongType (expected : String)
  | operator (fault : Fault)

/-- The wording of a misfit. -/
def Misfit.message : Misfit → String
  | notToml => "not a TOML document"
  | unexpectedKey => "unexpected table or key"
  | repeatedKey key => "duplicate key " ++ key
  | wrongType expected => "invalid type, expected " ++ expected
  | operator fault => fault.display

/-- The table `compiler` as it is given: by key, or in order. -/
inductive Given where
  | keyed (settings : List (String × Toml.Value))
  | ordered (values : List Toml.Value)

/-- The key and value of an entry under a single key. -/
def singleKey : List String × Toml.Value → Option (String × Toml.Value)
  | ([key], value) => some (key, value)
  | _ => none

/-- The setting that a statement makes inside the table. -/
def innerEntry : Toml.Statement → Option (String × Toml.Value)
  | .entry path value => singleKey (path, value)
  | _ => none

/-- The setting that a statement makes under a dotted key. -/
def dottedEntry : Toml.Statement → Option (String × Toml.Value)
  | .entry ("compiler" :: path) value => singleKey (path, value)
  | _ => none

/-- Finds the table `compiler` in a document that must hold nothing else. -/
def given? : List Toml.Statement → Option Given
  | [.entry ["compiler"] (.table entries)] => .keyed <$> entries.mapM singleKey
  | [.entry ["compiler"] (.array values)] => some (.ordered values)
  | .header ["compiler"] :: statements => .keyed <$> statements.mapM innerEntry
  | statements => .keyed <$> statements.mapM dottedEntry

/-- The text of a value that must be a string. -/
def stringOf : Toml.Value → Except Misfit String
  | .string s => .ok s
  | _ => .error (.wrongType "a string")

/-- The comparison that a value names. -/
def comparisonOf (value : Toml.Value) : Except Misfit Comparison := do
  (Comparison.read (← stringOf value)).mapError .operator

/-- The connective that a value names. -/
def connectiveOf (value : Toml.Value) : Except Misfit Connective := do
  (Connective.read (← stringOf value)).mapError .operator

/-- The items of a value that must be an array. -/
def itemsOf {α : Type} (item : Toml.Value → Except Misfit α) :
    Toml.Value → Except Misfit (List α)
  | .array items => items.mapM item
  | _ => .error (.wrongType "a sequence")

/-- Makes a setting. -/
def set (policy : Policy) (setting : Setting) (value : Toml.Value) : Except Misfit Policy :=
  match setting with
  | .comparison => do pure { policy with comparison := ← comparisonOf value }
  | .connective => do pure { policy with connective := ← connectiveOf value }
  | .allowedComparisons => do
    pure { policy with allowedComparisons := ← itemsOf comparisonOf value }
  | .allowedConnectives => do
    pure { policy with allowedConnectives := ← itemsOf connectiveOf value }

/-- Makes settings by key, none of them twice. -/
def setKeyed : List Setting → Policy → List (String × Toml.Value) → Except Misfit Policy
  | _, policy, [] => .ok policy
  | seen, policy, (key, value) :: rest => do
    match Setting.all.find? fun setting => setting.key == key with
    | none => throw .unexpectedKey
    | some setting =>
      if setting ∈ seen then throw (.repeatedKey key)
      else setKeyed (setting :: seen) (← policy.set setting value) rest

/-- Makes settings in their order; values beyond the last setting do not count. -/
def setOrdered : Policy → List (Setting × Toml.Value) → Except Misfit Policy
  | policy, [] => .ok policy
  | policy, (setting, value) :: rest => do
    setOrdered (← policy.set setting value) rest

/-- The policy of a TOML text, which need not be sound. -/
def ofToml (source : String) : Except Misfit Policy :=
  match Toml.read source with
  | none => .error .notToml
  | some statements =>
    match given? statements with
    | none => .error .unexpectedKey
    | some (.keyed settings) => setKeyed [] {} settings
    | some (.ordered values) => setOrdered {} (Setting.all.zip values)

/-- Reads a sound policy from TOML text. -/
def read (source : String) : Except Fault SoundPolicy :=
  match ofToml source with
  | .ok policy => policy.check
  | .error misfit =>
    .error ((Fault.of (.invalidPolicy ("Invalid compiler configuration: " ++ misfit.message))).dueTo
      misfit.message)

/-- Reads a sound policy from the content of a file, or takes the reason why there is none. -/
def ofFile (path : String) : Except String String → Except Fault SoundPolicy
  | .ok content => read content
  | .error reason =>
    .error ((Fault.of (.invalidPolicy ("Failed to read " ++ path ++ ": " ++ reason))).dueTo reason)

end BoundSql.Policy
