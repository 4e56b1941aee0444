import Oxidant.Lib.Joins
import Oxidant.Planner.Plan

/-! What a plan computes on one node, and walks over a plan and within the subqueries of its
expressions. A plan computes the same on two nodes that have the tables it reads in common. -/
namespace Oxidant.Planner
open Lib

/-- The argument tuples of a group's rows, past the FILTER and the DISTINCT of an aggregate. -/
def AggExpr.tuples (db : Database) (agg : AggExpr) (rows : List Row) : List (List Value) :=
  let kept := rows.filter fun row => agg.filter.all (Expr.passes db row)
  let tuples := kept.map fun row => agg.args.map (Expr.eval db row)
  if agg.distinct then tuples.dedup else tuples

def AggExpr.eval (db : Database) (agg : AggExpr) (rows : List Row) : Value :=
  agg.compute (agg.tuples db rows)

namespace GroupBy

def levels (group : GroupBy) : List (List Nat) :=
  group.sets.getD [List.range group.exprs.length]

/-- The key of a row at a level, NULL in the columns the level leaves out. -/
def key (db : Database) (group : GroupBy) (level : List Nat) (row : Row) : List Value :=
  group.exprs.zipIdx.map fun entry => if entry.2 ∈ level then entry.1.1.eval db row else .null

/-- The keys of a level. A level without columns is one group even of no rows. -/
def keys (db : Database) (group : GroupBy) (level : List Nat) (rows : List Row) : List (List Value) :=
  if level = [] then [group.exprs.map fun _ => .null] else (rows.map (group.key db level)).dedup

def schema (group : GroupBy) : List Column := group.exprs.map (·.2)

end GroupBy

def groupRow (db : Database) (group : GroupBy) (aggs : List AggExpr) (rows : List Row)
    (level : List Nat) (key : List Value) : Row :=
  group.schema.zip key ++ aggs.map fun agg =>
    (agg.output,agg.eval db (rows.filter fun row => group.key db level row = key))

def groupRows (db : Database) (group : GroupBy) (aggs : List AggExpr) (rows : List Row) : List Row :=
  group.levels.flatMap fun level => (group.keys db level rows).map (groupRow db group aggs rows level)

/-- The partition of a row in the order of the window, and the place of the row in it. -/
def WindowExpr.eval (db : Database) (expr : WindowExpr) (rows : List Row) (index : Nat) (row : Row) : Value :=
  let key := fun row => expr.partitionBy.map (Expr.eval db row)
  let before := (rows.take index).filter fun other =>
    key other = key row ∧ SortExpr.leAll db expr.orderBy other row
  let after := (rows.drop (index+1)).filter fun other =>
    key other = key row ∧ ¬SortExpr.leAll db expr.orderBy row other
  let ordered := sortRows db expr.orderBy (rows.filter fun other => key other = key row)
  expr.compute (ordered.map fun row => expr.args.map (Expr.eval db row)) (before.length + after.length)

def JoinOn.pairEqual (condition : JoinOn) (left right : Value) : Bool :=
  if condition.nullEqualsNull then left = right else (left.eq right).isTrue

def JoinOn.holds (db : Database) (condition : JoinOn) (left right : Row) : Bool :=
  condition.on.all (fun keys => condition.pairEqual (keys.1.eval db left) (keys.2.eval db right)) &&
    condition.filter.all (Expr.passes db (left ++ right))

def markColumn : Column := ⟨none,"mark"⟩

def joinRows (db : Database) (type : JoinType) (condition : JoinOn)
    (leftSchema rightSchema : List Column) (left right : List Row) : List Row :=
  let test := condition.holds db
  let flipped := fun row other => test other row
  let lone := fun row => row ++ Row.nulls rightSchema
  let loneRight := fun row => Row.nulls leftSchema ++ row
  match type with
  | .inner => Joins.inner test (· ++ ·) left right
  | .left => Joins.outer test (· ++ ·) lone left right
  | .right => Joins.outer flipped (fun row other => other ++ row) loneRight right left
  | .full => Joins.full test (· ++ ·) lone loneRight left right
  | .leftSemi => Joins.semi test left right
  | .rightSemi => Joins.semi flipped right left
  | .leftAnti => Joins.anti test left right
  | .rightAnti => Joins.anti flipped right left
  | .leftMark => left.map fun row => row ++ [(markColumn,.bool (right.any (test row)))]
  | .rightMark => right.map fun row => row ++ [(markColumn,.bool (left.any (flipped row)))]

def LogicalPlan.schema : LogicalPlan → List Column
  | .tableScan table schema _ _ => schema.map fun name => ⟨some table,name⟩
  | .filter _ input => input.schema
  | .projection exprs _ => exprs.map (·.2)
  | .subqueryAlias name input => input.schema.map fun column => ⟨some name,column.name⟩
  | .join type _ left right => match type with
    | .leftSemi | .leftAnti => left.schema
    | .rightSemi | .rightAnti => right.schema
    | .leftMark => left.schema ++ [markColumn]
    | .rightMark => right.schema ++ [markColumn]
    | _ => left.schema ++ right.schema
  | .union schema _ => schema
  | .sort _ _ input => input.schema
  | .limit _ _ input => input.schema
  | .distinct on input => on.elim input.schema fun on => on.select.map (·.2)
  | .window exprs input => input.schema ++ exprs.map (·.output)
  | .aggregate group aggs _ => group.schema ++ aggs.map (·.output)

def takeUpTo (fetch : Option Nat) (rows : List Row) : List Row := fetch.elim rows rows.take

def project (db : Database) (exprs : List (Expr × Column)) (row : Row) : Row :=
  exprs.map fun entry => (entry.2,entry.1.eval db row)

def distinctRows (db : Database) : Option DistinctOn → List Row → List Row
  | none,rows => rows.dedup
  | some on,rows =>
    let ordered := sortRows db on.sort rows
    let key := fun row => on.on.map (Expr.eval db row)
    (ordered.map key).dedup.flatMap fun wanted =>
      ((ordered.find? fun row => key row = wanted).map (project db on.select)).toList

def tableRow (table : TableReference) (fields : Fields) : Row :=
  fields.map fun cell => (⟨some table,cell.1⟩,cell.2)

def scanRow (table : TableReference) (schema : List String) (fields : Fields) : Row :=
  schema.map fun name => (⟨some table,name⟩,Fields.get fields name)

mutual

/-- The rows of a plan. Scans, joins and aggregations give them in an order of their own, visible
only to a LIMIT. -/
def LogicalPlan.eval (db : Database) : LogicalPlan → List Row
  | .tableScan table schema filters fetch =>
    let kept := (db table).filter fun fields => filters.all (Expr.passes db (tableRow table fields))
    takeUpTo fetch (kept.map (scanRow table schema))
  | .filter predicate input => (input.eval db).filter fun row => predicate.passes db row
  | .projection exprs input => (input.eval db).map (project db exprs)
  | .subqueryAlias name input => (input.eval db).map (Row.qualify name)
  | .join type condition left right =>
    joinRows db type condition left.schema right.schema (left.eval db) (right.eval db)
  | .union schema inputs => (evalAll db inputs).map (Row.relabel schema)
  | .sort keys fetch input => takeUpTo fetch (sortRows db keys (input.eval db))
  | .limit skip fetch input => takeUpTo (fetch.map (·.value)) ((input.eval db).drop (skip.elim 0 (·.value)))
  | .distinct on input => distinctRows db on (input.eval db)
  | .window exprs input =>
    let rows := input.eval db
    rows.zipIdx.map fun entry => entry.1 ++ exprs.map fun expr => (expr.output,expr.eval db rows entry.2 entry.1)
  | .aggregate group aggs input => groupRows db group aggs (input.eval db)

def evalAll (db : Database) : List LogicalPlan → List Row
  | [] => []
  | input::inputs => input.eval db ++ evalAll db inputs

end

lemma evalAll_eq (db inputs) : evalAll db inputs = inputs.flatMap (LogicalPlan.eval db) := by
  induction inputs with
  | nil => rfl
  | cons input inputs ih => rw [evalAll,ih,List.flatMap_cons]

open List

def AggExpr.exprs (agg : AggExpr) : List Expr := agg.args ++ agg.filter.toList

def WindowExpr.exprs (expr : WindowExpr) : List Expr :=
  expr.partitionBy ++ expr.orderBy.map (·.expr) ++ expr.args

def JoinOn.exprs (condition : JoinOn) : List Expr :=
  condition.on.flatMap (fun keys => [keys.1,keys.2]) ++ condition.filter.toList

def DistinctOn.exprs (on : DistinctOn) : List Expr :=
  on.on ++ on.select.map (·.1) ++ on.sort.map (·.expr)

def Expr.tables (expr : Expr) : List TableReference := expr.subqueries.flatMap (·.tables)

namespace LogicalPlan

def inputs : LogicalPlan → List LogicalPlan
  | .tableScan .. => []
  | .filter _ input => [input]
  | .projection _ input => [input]
  | .subqueryAlias _ input => [input]
  | .join _ _ left right => [left,right]
  | .union _ inputs => inputs
  | .sort _ _ input => [input]
  | .limit _ _ input => [input]
  | .distinct _ input => [input]
  | .window _ input => [input]
  | .aggregate _ _ input => [input]

def expressions : LogicalPlan → List Expr
  | .tableScan _ _ filters _ => filters
  | .filter predicate _ => [predicate]
  | .projection exprs _ => exprs.map (·.1)
  | .subqueryAlias _ _ => []
  | .join _ condition _ _ => condition.exprs
  | .union _ _ => []
  | .sort keys _ _ => keys.map (·.expr)
  | .limit _ _ _ => []
  | .distinct on _ => on.elim [] DistinctOn.exprs
  | .window exprs _ => exprs.flatMap WindowExpr.exprs
  | .aggregate group aggs _ => group.exprs.map (·.1) ++ aggs.flatMap AggExpr.exprs

variable {α : Type} (combine : LogicalPlan → List α → α)

mutual

def fold : LogicalPlan → α
  | .tableScan table schema filters fetch => combine (.tableScan table schema filters fetch) []
  | .filter predicate input => combine (.filter predicate input) [input.fold]
  | .projection exprs input => combine (.projection exprs input) [input.fold]
  | .subqueryAlias name input => combine (.subqueryAlias name input) [input.fold]
  | .join type condition left right => combine (.join type condition left right) [left.fold,right.fold]
  | .union schema inputs => combine (.union schema inputs) (foldAll inputs)
  | .sort keys fetch input => combine (.sort keys fetch input) [input.fold]
  | .limit skip fetch input => combine (.limit skip fetch input) [input.fold]
  | .distinct on input => combine (.distinct on input) [input.fold]
  | .window exprs input => combine (.window exprs input) [input.fold]
  | .aggregate group aggs input => combine (.aggregate group aggs input) [input.fold]

def foldAll : List LogicalPlan → List α
  | [] => []
  | input::inputs => input.fold::foldAll inputs

end

lemma foldAll_eq (inputs) : foldAll combine inputs = inputs.map (fold combine) := by
  induction inputs with
  | nil => rfl
  | cons input inputs ih => rw [foldAll,ih,map_cons]

lemma fold_eq (lp) : lp.fold combine = combine lp (lp.inputs.map (fold combine)) := by
  cases lp with
  | union schema inputs => rw [fold,foldAll_eq,LogicalPlan.inputs]
  | _ => rfl

lemma sizeOf_input {lp input : LogicalPlan} (mem : input ∈ lp.inputs) : sizeOf input < sizeOf lp := by
  cases lp with
  | union schema inputs =>
    have inside : sizeOf input < sizeOf inputs := sizeOf_lt_of_mem mem
    simp only [LogicalPlan.union.sizeOf_spec]
    omega
  | join type condition left right =>
    rcases mem_pair.mp mem with rfl | rfl <;>
      simp only [LogicalPlan.join.sizeOf_spec] <;> omega
  | tableScan => cases mem
  | _ =>
    obtain rfl := mem_singleton.mp mem
    simp +arith

@[elab_as_elim]
lemma inputs_induction {motive : LogicalPlan → Prop}
    (step : ∀ lp, (∀ input ∈ lp.inputs, motive input) → motive lp) (lp) :
    motive lp := by
  induction size : sizeOf lp using Nat.strong_induction_on generalizing lp with
  | _ n ih =>
    apply step
    intro input mem
    exact ih _ (size ▸ sizeOf_input mem) input rfl

def scanned : LogicalPlan → List TableReference
  | .tableScan table _ _ _ => [table]
  | _ => []

def tables (lp : LogicalPlan) : List TableReference :=
  lp.fold fun node found => node.scanned ++ found.flatten ++ node.expressions.flatMap Expr.tables

lemma tables_eq (lp : LogicalPlan) :
    lp.tables = lp.scanned ++ lp.inputs.flatMap tables ++ lp.expressions.flatMap Expr.tables := by
  conv_lhs => rw [tables,fold_eq]
  rfl

def countTableScans (lp : LogicalPlan) (name : String) : Nat :=
  lp.fold fun node counts => (node.scanned.countP (·.table == name)) + counts.sum +
    (node.expressions.flatMap Expr.tables).countP (·.table == name)

def baseTables (lp : LogicalPlan) : List String :=
  lp.fold fun node found => node.scanned.map (·.table) ++ found.flatten

def collectSubqueryTables (lp : LogicalPlan) : List String :=
  lp.fold fun node found => (node.expressions.flatMap Expr.tables).map (·.table) ++ found.flatten

def planContainsAggregate (lp : LogicalPlan) : Bool :=
  lp.fold fun node found => match node with
    | .aggregate .. => true
    | _ => found.any id

def planContainsWindow (lp : LogicalPlan) : Bool :=
  lp.fold fun node found => match node with
    | .window .. => true
    | _ => found.any id

def planContainsDistinct (lp : LogicalPlan) : Bool :=
  lp.fold fun node found => match node with
    | .distinct .. => true
    | _ => found.any id

lemma countTableScans_eq (lp : LogicalPlan) (name) :
    lp.countTableScans name = lp.tables.countP (·.table == name) := by
  induction lp using inputs_induction with
  | step lp ih =>
    have below : (lp.inputs.map fun input => input.countTableScans name).sum =
        (lp.inputs.flatMap tables).countP (·.table == name) := by
      rw [countP_flatMap]
      exact congrArg List.sum (map_congr_left ih)
    rw [tables_eq,countP_append,countP_append,← below,countTableScans,fold_eq]
    rfl

end LogicalPlan

variable {other : Database}

lemma all_congr {items : List α} {keep drop : α → Bool}
    (same : ∀ item ∈ items, keep item = drop item) : items.all keep = items.all drop := by
  rw [Bool.eq_iff_iff,all_eq_true,all_eq_true]
  exact forall₂_congr fun item mem => by rw [same item mem]

def Agree (db other : Database) (exprs : List Expr) : Prop :=
  ∀ expr ∈ exprs, ∀ row, expr.eval db row = expr.eval other row

lemma Agree.mono (agree : Agree db other exprs) (sub : less ⊆ exprs) :
    Agree db other less := fun expr mem => agree expr (sub mem)

lemma Expr.eval_congr {expr : Expr} (same : ∀ table ∈ expr.tables, db table = other table)
    (row : Row) : expr.eval db row = expr.eval other row := by
  unfold Expr.tables at same
  induction expr with
  | column c => rfl
  | literal v => rfl
  | and left right ihl ihr =>
    rw [Expr.subqueries,flatMap_append,forall_mem_append] at same
    rw [Expr.eval,Expr.eval,ihl same.1,ihr same.2]
  | eq left right ihl ihr =>
    rw [Expr.subqueries,flatMap_append,forall_mem_append] at same
    rw [Expr.eval,Expr.eval,ihl same.1,ihr same.2]
  | aliased inner name ih => exact ih same
  | other text reads subqueries compute => exact congrArg (compute · _) (map_congr_left same)

lemma agree_of_tables {exprs : List Expr}
    (same : ∀ table ∈ exprs.flatMap Expr.tables, db table = other table) : Agree db other exprs := by
  intro expr mem row
  apply Expr.eval_congr
  intro table inside
  exact same table (mem_flatMap.mpr ⟨expr,mem,inside⟩)

namespace Agree

lemma passes (agree : Agree db other exprs) (mem : expr ∈ exprs) (row) :
    expr.passes db row = expr.passes other row := by
  unfold Expr.passes
  rw [agree expr mem row]

lemma leAll {keys} (agree : Agree db other (keys.map (·.expr))) (before after : Row) :
    SortExpr.leAll db keys before after ↔ SortExpr.leAll other keys before after := by
  induction keys with
  | nil => rfl
  | cons key keys ih =>
    have here := agree key.expr (by simp)
    have rest := ih (agree.mono (by simp))
    unfold SortExpr.leAll SortExpr.le
    rw [here before,here after,rest]

lemma sortRows {keys} (agree : Agree db other (keys.map (·.expr))) (rows) :
    sortRows db keys rows = sortRows other keys rows := by
  have insert : insertRow db keys = insertRow other keys := by
    funext row rows
    induction rows with
    | nil => rfl
    | cons next rest ih => simp only [insertRow,agree.leAll,ih]
  unfold Planner.sortRows
  rw [insert]

lemma agg {agg : AggExpr} (agree : Agree db other agg.exprs) (rows) : agg.eval db rows = agg.eval other rows := by
  have kept : (rows.filter fun row => agg.filter.all (Expr.passes db row)) =
      rows.filter fun row => agg.filter.all (Expr.passes other row) := by
    apply filter_congr
    intro row _
    cases given : agg.filter with
    | none => rfl
    | some predicate => exact agree.passes (by simp [AggExpr.exprs,given]) row
  have values : ∀ row, agg.args.map (Expr.eval db row) = agg.args.map (Expr.eval other row) := by
    intro row
    apply map_congr_left
    intro arg mem
    exact agree arg (mem_append_left _ mem) row
  unfold AggExpr.eval AggExpr.tuples
  simp only [kept,values]

lemma key {group : GroupBy} (agree : Agree db other (group.exprs.map (·.1))) (level) :
    group.key db level = group.key other level := by
  funext row
  apply map_congr_left
  intro entry mem
  have inside : entry.1 ∈ group.exprs := (mem_zipIdx' mem).2 ▸ getElem_mem _
  rw [agree entry.1.1 (mem_map_of_mem inside) row]

lemma groupRows (agree : Agree db other (group.exprs.map (·.1) ++ aggs.flatMap AggExpr.exprs))
    (rows : List Row) : groupRows db group aggs rows = groupRows other group aggs rows := by
  have keys := (agree.mono (subset_append_left _ _)).key
  have values : ∀ agg ∈ aggs, ∀ rows, agg.eval db rows = agg.eval other rows := by
    intro agg mem
    apply Agree.agg
    exact agree.mono fun expr inside => mem_append_right _ (mem_flatMap.mpr ⟨agg,mem,inside⟩)
  have row : ∀ level key, groupRow db group aggs rows level key = groupRow other group aggs rows level key := by
    intro level key
    unfold groupRow
    rw [keys]
    refine congrArg _ (map_congr_left fun agg mem => ?_)
    rw [values agg mem]
  unfold Planner.groupRows GroupBy.keys
  simp only [keys]
  refine congrArg (List.flatMap · _) (funext fun level => map_congr_left fun key _ => ?_)
  exact row level key

lemma holds {condition : JoinOn} (agree : Agree db other condition.exprs) :
    condition.holds db = condition.holds other := by
  funext left right
  unfold JoinOn.holds
  congr 1
  · apply all_congr
    intro keys mem
    have inside : ∀ expr ∈ [keys.1,keys.2], expr ∈ condition.exprs := fun expr inside =>
      mem_append_left _ (mem_flatMap.mpr ⟨keys,mem,inside⟩)
    rw [agree keys.1 (inside _ (by simp)),agree keys.2 (inside _ (by simp))]
  · cases given : condition.filter with
    | none => rfl
    | some predicate => exact agree.passes (by simp [JoinOn.exprs,given]) _

lemma window {expr : WindowExpr} (agree : Agree db other expr.exprs) (rows : List Row)
    (index row) : expr.eval db rows index row = expr.eval other rows index row := by
  have keys : ∀ row, expr.partitionBy.map (Expr.eval db row) = expr.partitionBy.map (Expr.eval other row) := by
    intro row
    apply map_congr_left
    intro key mem
    exact agree key (by simp [WindowExpr.exprs,mem]) row
  have args : ∀ row, expr.args.map (Expr.eval db row) = expr.args.map (Expr.eval other row) := by
    intro row
    apply map_congr_left
    intro arg mem
    exact agree arg (by simp [WindowExpr.exprs,mem]) row
  have order : Agree db other (expr.orderBy.map (·.expr)) := agree.mono fun e mem => by
    simp only [WindowExpr.exprs,mem_append,mem,or_true,true_or]
  unfold WindowExpr.eval
  simp only [keys,args,order.sortRows,order.leAll]

lemma project (agree : Agree db other (exprs.map (·.1))) (row) :
    project db exprs row = project other exprs row := by
  apply map_congr_left
  intro entry mem
  rw [agree entry.1 (mem_map_of_mem mem) row]

lemma distinctRows (agree : Agree db other (on.elim [] DistinctOn.exprs)) (rows : List Row) :
    distinctRows db on rows = distinctRows other on rows := by
  cases on with
  | none => rfl
  | some on =>
    have keys : ∀ row, on.on.map (Expr.eval db row) = on.on.map (Expr.eval other row) := by
      intro row
      apply map_congr_left
      intro key mem
      exact agree key (by simp [DistinctOn.exprs,mem]) row
    have order : Agree db other (on.sort.map (·.expr)) := agree.mono fun e mem => by
      simp only [Option.elim_some,DistinctOn.exprs,mem_append,mem,or_true]
    have select : Planner.project db on.select = Planner.project other on.select :=
      funext fun row => Agree.project (agree.mono fun e mem => by
        simp only [Option.elim_some,DistinctOn.exprs,mem_append,mem,or_true,true_or]) row
    unfold Planner.distinctRows
    simp only [keys,order.sortRows,select]

end Agree

lemma LogicalPlan.eval_congr {lp : LogicalPlan}
    (same : ∀ table ∈ lp.tables, db table = other table) : lp.eval db = lp.eval other := by
  induction lp using inputs_induction with
  | step lp ih =>
    rw [tables_eq,forall_mem_append,forall_mem_append] at same
    obtain ⟨⟨own,lower⟩,inside⟩ := same
    have input : ∀ input ∈ lp.inputs, input.eval db = input.eval other := by
      intro input mem
      apply ih input mem
      intro table inside
      exact lower table (mem_flatMap.mpr ⟨input,mem,inside⟩)
    have agree := agree_of_tables inside
    cases lp with
    | tableScan table schema filters fetch =>
      rw [eval,eval,own table (by simp [scanned])]
      have kept : ∀ row, filters.all (Expr.passes db row) = filters.all (Expr.passes other row) := by
        intro row
        exact all_congr fun predicate mem => agree.passes mem row
      simp only [kept]
    | filter predicate below =>
      rw [eval,eval,input below (by simp [inputs])]
      exact filter_congr fun row _ => agree.passes (by simp [expressions]) row
    | projection exprs below =>
      rw [eval,eval,input below (by simp [inputs])]
      exact map_congr_left fun row _ => Agree.project agree row
    | subqueryAlias name below => rw [eval,eval,input below (by simp [inputs])]
    | join type condition left right =>
      rw [eval,eval,input left (by simp [inputs]),input right (by simp [inputs])]
      unfold joinRows
      rw [Agree.holds agree]
    | union schema arms =>
      rw [eval,eval,evalAll_eq,evalAll_eq]
      exact congrArg _ (flatMap_congr input)
    | sort keys fetch below => rw [eval,eval,input below (by simp [inputs]),Agree.sortRows agree]
    | limit skip fetch below => rw [eval,eval,input below (by simp [inputs])]
    | distinct on below => rw [eval,eval,input below (by simp [inputs]),Agree.distinctRows agree]
    | window exprs below =>
      rw [eval,eval,input below (by simp [inputs])]
      refine map_congr_left fun entry _ => congrArg _ (map_congr_left fun expr mem => ?_)
      have here : Agree db other expr.exprs := agree.mono fun e inside => mem_flatMap.mpr ⟨expr,mem,inside⟩
      rw [here.window]
    | aggregate group aggs below => rw [eval,eval,input below (by simp [inputs]),Agree.groupRows agree]
end Oxidant.Planner
