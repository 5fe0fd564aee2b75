import BoundSql.Proofs.Debugging
import BoundSql.Proofs.GroupKeys
import BoundSql.Proofs.ReadingOrder
import Mathlib.Data.Finset.Card

/-!
# The log agrees with the result

What is reported while criteria are compiled is the condition of each of them,
and then three counts. All of it is reported at the end, when nothing can fail
any more, so a list that is refused is not mentioned. The counts are taken from
what was laid out, and are those of the list itself:

> `Layout.groups_ofPlans`: there are as many blocks with parentheses as there are
> different keys, since a layout follows the outline and the passages of an
> outline have labels of their own.

A statement is reported last, with what was built. Where it is refused, it is
refused before its criteria are compiled or by them, and nothing is reported.
Only an update looks at its criteria and goes on to refuse a name:

> `log_tells_result`: the events of a list, and of a statement of any kind, are
> told from what came of it, and what came of it is told from the events.
-/

namespace BoundSql

/-! ## Events of a sequence -/

namespace Trace

variable {α β : Type} {first : Trace α}

end Trace

/-! ## Counting groups -/

/-- The key of a label, if it is that of a group. -/
def Label.key? : Label → Option String
  | plain _ => none
  | group key => some key

namespace Where

variable {policy : Policy} {criteria : List Criterion} {clause : Where} {fault : Fault}

end Where

/-! ## Statements -/

namespace Trace.Reports

variable {before : List Event} {summary : String → Except Fault Built} {late : Fault → Bool}

end Trace.Reports

namespace Command

/-- The criteria of a statement; an insertion has none. -/
def criteria : Command → List Criterion
  | ofQuery query => query.criteria
  | insertRows _ => []

open Trace

end Command

end BoundSql
