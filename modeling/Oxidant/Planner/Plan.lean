import Mathlib.Data.List.Dedup
import Mathlib.Data.Prod.Lex
import Mathlib.Algebra.Order.Ring.Rat
import Mathlib.Algebra.Ring.Nat
import Mathlib.Data.String.Basic

/-! Logical plans and what they compute. A row names its columns, a table is a bag of rows kept as a
list, and expressions the planner does not look into are the functions they compute. -/
namespace Oxidant.Planner

inductive Value where
  | null
  | bool (b : Bool)
  | num (x : Rat)
  | text (s : String)
  deriving DecidableEq, Repr

namespace Value

def isTrue : Value → Bool
  | .bool b => b
  | _ => false

def eq (left right : Value) : Value :=
  if left = .null ∨ right = .null then .null else .bool (left = right)

def and : Value → Value → Value
  | .bool false,_ => .bool false
  | _,.bool false => .bool false
  | .bool true,.bool true => .bool true
  | _,_ => .null

def number : Value → Option Rat
  | .num x => some x
  | _ => none

def rank : Value → ℕ ×ₗ ℚ ×ₗ String
  | .null => toLex (0,toLex (0,""))
  | .bool b => toLex (1,toLex (if b then 1 else 0,""))
  | .num x => toLex (2,toLex (x,""))
  | .text s => toLex (3,toLex (0,s))

end Value

structure TableReference where
  path : List String
  table : String
  deriving DecidableEq, Repr

structure Column where
  relation : Option TableReference
  name : String
  deriving DecidableEq, Repr

def Column.answers (asked held : Column) : Bool :=
  asked.name == held.name && (asked.relation.isNone || asked.relation == held.relation)

abbrev Fields := List (String × Value)

abbrev Row := List (Column × Value)

abbrev Database := TableReference → List Fields

namespace Row

def get (row : Row) (asked : Column) : Value :=
  ((row.find? fun cell => asked.answers cell.1).map (·.2)).getD .null

def fields (row : Row) : Fields := row.map fun cell => (cell.1.name,cell.2)

def nulls (schema : List Column) : Row := schema.map fun column => (column,.null)

def relabel (schema : List Column) (row : Row) : Row :=
  schema.zipIdx.map fun entry => (entry.1,(row[entry.2]?.map (·.2)).getD .null)

def qualify (relation : TableReference) (row : Row) : Row :=
  row.map fun cell => (⟨some relation,cell.1.name⟩,cell.2)

end Row

def Fields.get (fields : Fields) (name : String) : Value :=
  ((fields.find? fun cell => cell.1 == name).map (·.2)).getD .null

/-- What the planner reads of a plan within an expression: every table it scans, and whether it has
a DISTINCT. -/
structure Subquery where
  tables : List TableReference
  distinct : Bool
  deriving Repr

inductive Expr where
  | column (c : Column)
  | literal (v : Value)
  | and (left right : Expr)
  | eq (left right : Expr)
  | aliased (inner : Expr) (name : String)
  /-- Any other expression: its text, columns, subqueries and what it computes from them. -/
  | other (text : String) (reads : List Column) (subqueries : List Subquery)
      (compute : List (List Fields) → List Value → Value)

namespace Expr

def columns : Expr → List Column
  | .column c => [c]
  | .literal _ => []
  | .and left right => left.columns ++ right.columns
  | .eq left right => left.columns ++ right.columns
  | .aliased inner _ => inner.columns
  | .other _ reads _ _ => reads

def subqueries : Expr → List Subquery
  | .column _ => []
  | .literal _ => []
  | .and left right => left.subqueries ++ right.subqueries
  | .eq left right => left.subqueries ++ right.subqueries
  | .aliased inner _ => inner.subqueries
  | .other _ _ subqueries _ => subqueries

def eval (db : Database) (row : Row) : Expr → Value
  | .column c => Row.get row c
  | .literal v => v
  | .and left right => (left.eval db row).and (right.eval db row)
  | .eq left right => (left.eval db row).eq (right.eval db row)
  | .aliased inner _ => inner.eval db row
  | .other _ reads subqueries compute => compute ((subqueries.flatMap (·.tables)).map db) (reads.map (Row.get row))

def passes (db : Database) (row : Row) (predicate : Expr) : Bool := (predicate.eval db row).isTrue

end Expr

structure SortExpr where
  expr : Expr
  asc : Bool
  nullsFirst : Bool

namespace SortExpr

def nullRank (key : SortExpr) (value : Value) : Nat :=
  if value = .null then (if key.nullsFirst then 0 else 2) else 1

def le (db : Database) (key : SortExpr) (before after : Row) : Prop :=
  let first := key.expr.eval db before
  let second := key.expr.eval db after
  key.nullRank first < key.nullRank second ∨ key.nullRank first = key.nullRank second ∧
    if key.asc then first.rank ≤ second.rank else second.rank ≤ first.rank

instance (db : Database) (key : SortExpr) (before after : Row) :
    Decidable (key.le db before after) := by
  unfold le
  infer_instance

def leAll (db : Database) : List SortExpr → Row → Row → Prop
  | [],_,_ => True
  | key::keys,before,after => key.le db before after ∧ (key.le db after before → leAll db keys before after)

def decidableLeAll (db : Database) : (keys : List SortExpr) → (before after : Row) →
    Decidable (leAll db keys before after)
  | [],_,_ => isTrue trivial
  | _::keys,before,after =>
    have := decidableLeAll db keys before after
    inferInstanceAs (Decidable (_ ∧ (_ → _)))

instance (db : Database) (keys : List SortExpr) : DecidableRel (leAll db keys) :=
  decidableLeAll db keys

end SortExpr

def insertRow (db : Database) (keys : List SortExpr) (row : Row) : List Row → List Row
  | [] => [row]
  | next::rest =>
    if SortExpr.leAll db keys row next then row::next::rest
    else next::insertRow db keys row rest

def sortRows (db : Database) (keys : List SortExpr) (rows : List Row) : List Row :=
  rows.foldr (insertRow db keys) []

structure Count where
  value : Nat
  literal : Bool
  deriving DecidableEq, Repr

def numbers (tuples : List (List Value)) : List Rat :=
  tuples.flatMap fun tuple => (tuple.head?.bind Value.number).toList

def present (tuples : List (List Value)) : List (List Value) :=
  tuples.filter fun tuple => tuple.all (· ≠ .null)

def extreme (before : Value → Value → Bool) (tuples : List (List Value)) : Value :=
  (present tuples).foldr (fun tuple best =>
    if best = .null ∨ before (tuple.headD .null) best then tuple.headD .null else best) .null

def variance (less : Nat) (tuples : List (List Value)) : Option Rat :=
  let count := (present tuples).length
  let sum := (numbers tuples).sum
  let squares := ((numbers tuples).map fun x => x*x).sum
  if numbers tuples = [] ∨ count ≤ less then none
  else some ((squares - sum*sum/count)/(count-less))

/-- The functions whose partial results the planner recombines. A tuple without arguments is a row
of `count(*)`. -/
def standardAggregate (root : Rat → Value) (func : String) : Option (List (List Value) → Value) :=
  match func with
  | "sum" => some fun tuples => if numbers tuples = [] then .null else .num (numbers tuples).sum
  | "count" => some fun tuples => .num (present tuples).length
  | "avg" => some fun tuples => if numbers tuples = [] then .null
      else .num ((numbers tuples).sum / (present tuples).length)
  | "min" => some (extreme fun first second => first.rank ≤ second.rank)
  | "max" => some (extreme fun first second => second.rank ≤ first.rank)
  | "var" => some fun tuples => (variance 1 tuples).elim .null .num
  | "var_pop" => some fun tuples => (variance 0 tuples).elim .null .num
  | "stddev" => some fun tuples => (variance 1 tuples).elim .null root
  | "stddev_pop" => some fun tuples => (variance 0 tuples).elim .null root
  | _ => none

/-- An aggregate of a list under the lower-case name of its function, with what it computes. -/
structure AggExpr where
  func : String
  distinct : Bool
  filter : Option Expr
  args : List Expr
  output : Column
  root : Rat → Value
  compute : List (List Value) → Value
  standard : ∀ meaning ∈ standardAggregate root func,compute = meaning

/-- The grouping columns, and under a grouping set the levels to group by. -/
structure GroupBy where
  exprs : List (Expr × Column)
  sets : Option (List (List Nat))

structure WindowExpr where
  partitionBy : List Expr
  orderBy : List SortExpr
  args : List Expr
  output : Column
  compute : List (List Value) → Nat → Value

inductive JoinType where
  | inner | left | right | full | leftSemi | rightSemi | leftAnti | rightAnti | leftMark | rightMark
  deriving DecidableEq, Repr

structure JoinOn where
  on : List (Expr × Expr)
  filter : Option Expr
  nullEqualsNull : Bool

structure DistinctOn where
  on : List Expr
  select : List (Expr × Column)
  sort : List SortExpr

inductive LogicalPlan where
  | tableScan (table : TableReference) (schema : List String) (filters : List Expr)
      (fetch : Option Nat)
  | filter (predicate : Expr) (input : LogicalPlan)
  | projection (exprs : List (Expr × Column)) (input : LogicalPlan)
  | subqueryAlias (name : TableReference) (input : LogicalPlan)
  | join (type : JoinType) (condition : JoinOn) (left right : LogicalPlan)
  | union (schema : List Column) (inputs : List LogicalPlan)
  | sort (keys : List SortExpr) (fetch : Option Nat) (input : LogicalPlan)
  | limit (skip fetch : Option Count) (input : LogicalPlan)
  | distinct (on : Option DistinctOn) (input : LogicalPlan)
  | window (exprs : List WindowExpr) (input : LogicalPlan)
  | aggregate (group : GroupBy) (aggs : List AggExpr) (input : LogicalPlan)

end Oxidant.Planner
