import BoundSql.Json.Basic
import BoundSql.Policy.Basic

/-!
# Policies as JSON

A policy is written with all its settings, operators as their SQL texts.
-/

namespace BoundSql.Policy

/-- The JSON value of a policy. -/
def toJson (policy : Policy) : Json :=
  .object [
    ("default_comparison", .string policy.comparison.sql),
    ("default_logical", .string policy.connective.sql),
    ("allowed_comparisons", .array (policy.allowedComparisons.map fun op => .string op.sql)),
    ("allowed_logicals", .array (policy.allowedConnectives.map fun op => .string op.sql))]

end BoundSql.Policy
