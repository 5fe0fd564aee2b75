import BoundSql.Log.Trace
import BoundSql.Plan

/-!
# WHERE clauses

A criteria list is compiled in one pass over its plans. The text is a row of
blocks: a plain condition, or all conditions of one group in parentheses,
which stands where the first of them does. What leads into a block is settled
when it is opened. Nothing leads into the first block. A group may bring its
own lead. After a group with a text after it nothing more is needed. Otherwise
the connective of the criterion that opens the block is written. A criterion
of a group that is open already joins it, wherever the pass has got to.
-/

namespace BoundSql

/-- A piece of the outer text. -/
inductive Block where
  | plain (lead : Option Connective) (condition : String)
  | group (key : String) (lead : Option String) (first : String)
      (others : List (Connective × String)) (after : Option String)
  deriving DecidableEq, Repr

namespace Block

/-- Whether a block is the group of a key. -/
def hasKey (key : String) : Block → Bool
  | plain _ _ => false
  | group key' _ _ _ _ => key' == key

/-- Whether a block is a group. -/
def isGroup : Block → Bool
  | plain _ _ => false
  | group _ _ _ _ _ => true

/-- Adds a condition to the group of a key. -/
def join (key : String) (connective : Connective) (condition : String) : Block → Block
  | plain lead condition' => plain lead condition'
  | group key' lead first others after =>
    if key' = key then group key' lead first (others ++ [(connective, condition)]) after
    else group key' lead first others after

/-- The text that leads into a block, with the blank after it. -/
def leadText : Option String → String
  | some lead => lead ++ " "
  | none => ""

/-- The text that stands after a block, with the blank before it. -/
def afterText : Option String → String
  | some after => " " ++ after
  | none => ""

/-- The conditions of a group, with the connectives between them. -/
def body (first : String) (others : List (Connective × String)) : String :=
  first ++ String.join (others.map fun (connective, condition) =>
    " " ++ connective.sql ++ " " ++ condition)

/-- The text of a block. -/
def text : Block → String
  | plain lead condition => leadText (lead.map Connective.sql) ++ condition
  | group _ lead first others after =>
    leadText lead ++ "(" ++ Text.trimEnd (body first others) ++ ")" ++ afterText after

end Block

/-- The blocks so far, and whether the last of them brought the next connective along. -/
structure Layout where
  blocks : List Block
  connected : Bool
  deriving DecidableEq, Repr

namespace Layout

/-- Nothing is laid out yet. -/
def empty : Layout := ⟨[], false⟩

/-- The connective of the next block, unless it is the first or needs none. -/
def lead (layout : Layout) (connective : Connective) : Option Connective :=
  if layout.blocks.isEmpty || layout.connected then none else some connective

/-- What leads into the next block if that is a group with a text before it. -/
def groupLead (layout : Layout) (connective : Connective) (grouping : Grouping) :
    Option String :=
  if layout.blocks.isEmpty then none
  else (Text.nonBlank? grouping.before).orElse fun _ =>
    (layout.lead connective).map Connective.sql

/-- Lays out one more planned criterion. -/
def place (layout : Layout) (plan : Plan) : Layout :=
  match plan.criterion.grouping with
  | none =>
    { blocks := layout.blocks ++ [.plain (layout.lead plan.connective) plan.condition]
      connected := false }
  | some grouping =>
    if layout.blocks.any (Block.hasKey grouping.key) then
      { layout with
        blocks := layout.blocks.map (Block.join grouping.key plan.connective plan.condition) }
    else
      let after := Text.nonBlank? grouping.after
      { blocks := layout.blocks ++ [.group grouping.key
          (layout.groupLead plan.connective grouping) plan.condition [] after]
        connected := after.isSome }

/-- Lays out a list of plans. -/
def ofPlans (plans : List Plan) : Layout :=
  plans.foldl place empty

/-- The number of groups. -/
def groups (layout : Layout) : Nat :=
  layout.blocks.countP Block.isGroup

/-- The whole clause. -/
def clause (layout : Layout) : String :=
  Text.trimEnd (" WHERE " ++ " ".intercalate (layout.blocks.map Block.text))

end Layout

/-- A compiled clause and the bindings that it expects, in the order of the criteria. -/
structure Where where
  sql : String
  bindings : List Binding
  deriving Inhabited

namespace Where

/-- No criteria need no clause. -/
def empty : Where := ⟨"", []⟩

/-- Whether there is no clause. -/
def isEmpty (clause : Where) : Bool := clause.sql.isEmpty

/-- The names of the placeholders in the order of the bindings. -/
def names (clause : Where) : List String := clause.bindings.map Binding.name

/-- The clause of plans that have been made. -/
def ofPlans (plans : List Plan) : Where :=
  ⟨(Layout.ofPlans plans).clause, plans.flatMap Plan.slots⟩

/-- Compiles a criteria list under a policy and reports on it. Nothing is reported
unless every criterion could be planned. -/
def compileTraced (debug : Bool) (policy : Policy) (criteria : List Criterion) : Trace Where :=
  if criteria.isEmpty then
    pure empty
  else do
    let plans ← Trace.ofExcept (planAll policy criteria)
    let clause := ofPlans plans
    Trace.report (plans.map fun plan => .conditionWritten plan.position plan.condition)
    Trace.report [.clauseCompiled criteria.length (Layout.ofPlans plans).groups
      clause.bindings.length]
    Trace.reportDetail debug [.clauseText clause.sql]
    pure clause

/-- Compiles a criteria list under a policy. -/
def compile (policy : Policy) (criteria : List Criterion) : Except Fault Where :=
  (compileTraced false policy criteria).result

end Where

end BoundSql
