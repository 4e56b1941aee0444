import Oxidant.Planner.Frame

/-! Plans that can be run shard by shard: on every worker the sharded tables hold the rows dealt to it
and all other tables are whole. Stages of a distributed query, how a cluster runs them, and
aggregations in two phases. The SQL of a stage is the plan it is the text of. A leaf stage runs once
on every worker, one with upstreams once for every partition, a forward stage on the first worker. -/
namespace Oxidant.Planner
open Lib List
open Option hiding map_map

structure Sharding (sharded : String → Bool) (workers : List Database) (whole : Database) : Prop where
  replicated : ∀ worker ∈ workers, ∀ table, sharded table.table = false → worker table = whole table
  covers : ∀ table, sharded table.table → (workers.flatMap fun worker => worker table).Perm (whole table)

lemma insertRow_perm {keys} : (insertRow db keys row rows).Perm (row::rows) := by
  induction rows with
  | nil => rfl
  | cons next rest ih =>
    unfold insertRow
    split
    · rfl
    · exact (ih.cons next).trans (List.Perm.swap _ _ _)

lemma sortRows_perm (db keys rows) : (sortRows db keys rows).Perm rows := by
  induction rows with
  | nil => rfl
  | cons row rows ih => exact (insertRow_perm).trans (ih.cons row)

def JoinType.splitsLeft : JoinType → Bool
  | .inner | .left | .leftSemi | .leftAnti | .leftMark => true
  | _ => false

def JoinType.splitsRight : JoinType → Bool
  | .inner | .right | .rightSemi | .rightAnti | .rightMark => true
  | _ => false

section
variable (db : Database) (condition : JoinOn) (leftSchema rightSchema : List Column)

lemma joinRows_additive_left (splits : type.splitsLeft) :
    Additive fun left => joinRows db type condition leftSchema rightSchema left right := by
  cases type with
  | inner => exact Joins.inner_additive_left _ _ right
  | left => exact Joins.outer_additive _ _ _ right
  | leftSemi => exact Joins.semi_additive _ right
  | leftAnti => exact Joins.anti_additive _ right
  | leftMark => exact Additive.map _
  | _ => cases splits

lemma joinRows_additive_right (splits : type.splitsRight) :
    Additive fun right => joinRows db type condition leftSchema rightSchema left right := by
  cases type with
  | inner => exact Joins.inner_additive_right _ _ left
  | right => exact Joins.outer_additive _ _ _ left
  | rightSemi => exact Joins.semi_additive _ left
  | rightAnti => exact Joins.anti_additive _ left
  | rightMark => exact Additive.map _
  | _ => cases splits

end

def exprsFree (sharded : String → Bool) (exprs : List Expr) : Bool :=
  (exprs.flatMap Expr.tables).all fun table => !sharded table.table

namespace LogicalPlan
variable (sharded : String → Bool)

def free (lp : LogicalPlan) : Bool := lp.tables.all fun table => !sharded table.table

mutual

/-- A plan whose sharded scans reach its root through operators that work row by row. -/
def shardLocal : LogicalPlan → Bool
  | .tableScan table _ filters fetch => sharded table.table && exprsFree sharded filters && fetch.isNone
  | .filter predicate input => exprsFree sharded [predicate] && input.shardLocal
  | .projection exprs input => exprsFree sharded (exprs.map (·.1)) && input.shardLocal
  | .subqueryAlias _ input => input.shardLocal
  | .join type condition left right => exprsFree sharded condition.exprs &&
    (type.splitsLeft && left.shardLocal && right.free sharded ||
      type.splitsRight && left.free sharded && right.shardLocal)
  | .union _ inputs => shardLocalAll inputs
  | .sort _ fetch input => fetch.isNone && input.shardLocal
  | .limit skip fetch input => skip.all (·.value = 0) && fetch.isNone && input.shardLocal
  | .distinct _ _ => false
  | .window _ _ => false
  | .aggregate _ _ _ => false

def shardLocalAll : List LogicalPlan → Bool
  | [] => true
  | input::inputs => input.shardLocal && shardLocalAll inputs

end

lemma shardLocalAll_iff {inputs : List LogicalPlan} :
    shardLocalAll sharded inputs ↔ ∀ input ∈ inputs, input.shardLocal sharded := by
  induction inputs with
  | nil => simp [shardLocalAll]
  | cons input inputs ih => rw [shardLocalAll,Bool.and_eq_true,ih,forall_mem_cons]

end LogicalPlan

namespace Sharding
variable (sharding : Sharding sharded workers whole)
include sharding

lemma agree (free : exprsFree sharded exprs) (mem : worker ∈ workers) : Agree worker whole exprs := by
  apply agree_of_tables
  intro table inside
  apply sharding.replicated worker mem
  simpa using all_eq_true.mp free table inside

lemma eval_free {lp : LogicalPlan} (free : lp.free sharded)
    (mem : worker ∈ workers) : lp.eval worker = lp.eval whole := by
  apply LogicalPlan.eval_congr
  intro table inside
  apply sharding.replicated worker mem
  simpa using all_eq_true.mp free table inside

lemma eval_shardLocal {lp : LogicalPlan} (isLocal : lp.shardLocal sharded) :
    (workers.flatMap fun worker => lp.eval worker).Perm (lp.eval whole) := by
  induction lp using LogicalPlan.inputs_induction with
  | step lp ih =>
    cases lp with
    | tableScan table schema filters fetch =>
      simp only [LogicalPlan.shardLocal,Bool.and_eq_true,isNone_iff_eq_none] at isLocal
      obtain ⟨⟨mine,free⟩,rfl⟩ := isLocal
      have same : ∀ worker ∈ workers, ∀ fields ∈ worker table,
          filters.all (Expr.passes worker (tableRow table fields)) =
            filters.all (Expr.passes whole (tableRow table fields)) :=
        fun worker mem fields _ => all_congr fun predicate inside => (sharding.agree free mem).passes inside _
      simp only [LogicalPlan.eval,takeUpTo,elim_none]
      rw [flatMap_congr fun worker mem => congrArg (List.map _) (filter_congr (same worker mem))]
      exact ((Additive.map _).comp (Additive.filter _)).shares (sharding.covers table mine)
    | filter predicate input =>
      rw [LogicalPlan.shardLocal,Bool.and_eq_true] at isLocal
      simp only [LogicalPlan.eval]
      rw [flatMap_congr fun worker mem => filter_congr fun row _ =>
        (sharding.agree isLocal.1 mem).passes (mem_singleton_self _) row]
      exact (Additive.filter _).shares (ih input (by simp [LogicalPlan.inputs]) isLocal.2)
    | projection exprs input =>
      rw [LogicalPlan.shardLocal,Bool.and_eq_true] at isLocal
      simp only [LogicalPlan.eval]
      rw [flatMap_congr fun worker mem => map_congr_left fun row _ => (sharding.agree isLocal.1 mem).project row]
      exact (Additive.map _).shares (ih input (by simp [LogicalPlan.inputs]) isLocal.2)
    | subqueryAlias name input => exact (Additive.map _).shares (ih input (by simp [LogicalPlan.inputs]) isLocal)
    | join type condition left right =>
      rw [LogicalPlan.shardLocal,Bool.and_eq_true,Bool.or_eq_true] at isLocal
      simp only [Bool.and_eq_true] at isLocal
      obtain ⟨free,⟨⟨splits,mine⟩,apart⟩ | ⟨⟨splits,apart⟩,mine⟩⟩ := isLocal
      · have same : ∀ worker ∈ workers, (LogicalPlan.join type condition left right).eval worker =
            joinRows whole type condition left.schema right.schema (left.eval worker) (right.eval whole) := by
          intro worker mem
          rw [LogicalPlan.eval,sharding.eval_free apart mem]
          unfold joinRows
          rw [(sharding.agree free mem).holds]
        rw [flatMap_congr same]
        exact (joinRows_additive_left whole condition _ _ splits).shares (ih left (by simp [LogicalPlan.inputs]) mine)
      · have same : ∀ worker ∈ workers, (LogicalPlan.join type condition left right).eval worker =
            joinRows whole type condition left.schema right.schema (left.eval whole) (right.eval worker) := by
          intro worker mem
          rw [LogicalPlan.eval,sharding.eval_free apart mem]
          unfold joinRows
          rw [(sharding.agree free mem).holds]
        rw [flatMap_congr same]
        exact (joinRows_additive_right whole condition _ _ splits).shares
          (ih right (by simp [LogicalPlan.inputs]) mine)
    | union schema inputs =>
      rw [LogicalPlan.shardLocal,LogicalPlan.shardLocalAll_iff] at isLocal
      simp only [LogicalPlan.eval,evalAll_eq]
      apply (Additive.map (Row.relabel schema)).shares
      refine (flatMap_swap _ _ _).trans (List.Perm.flatMap_left _ fun input mem => ?_)
      exact ih input mem (isLocal input mem)
    | sort keys fetch input =>
      rw [LogicalPlan.shardLocal,Bool.and_eq_true,isNone_iff_eq_none] at isLocal
      obtain ⟨rfl,mine⟩ := isLocal
      have below := ih input (by simp [LogicalPlan.inputs]) mine
      exact (List.Perm.flatMap_left _ fun worker _ => sortRows_perm worker keys _).trans
        (below.trans (sortRows_perm whole keys _).symm)
    | limit skip fetch input =>
      simp only [LogicalPlan.shardLocal,Bool.and_eq_true,isNone_iff_eq_none] at isLocal
      obtain ⟨⟨zero,rfl⟩,mine⟩ := isLocal
      have none_ : (skip.elim 0 fun count => count.value) = 0 := by
        cases skip with
        | none => rfl
        | some count => simpa using zero
      simp only [LogicalPlan.eval,takeUpTo,none_,map_none,elim_none,drop_zero]
      exact ih input (by simp [LogicalPlan.inputs]) mine
    | distinct on input => cases isLocal
    | window exprs input => cases isLocal
    | aggregate group aggs input => cases isLocal

end Sharding

def Row.columns (row : Row) : List Column := row.map (·.1)

@[simp] lemma Row.columns_nulls (schema) : Row.columns (Row.nulls schema) = schema := by
  simp [Row.columns,Row.nulls,Function.comp_def]

@[simp] lemma Row.columns_append (row other) :
    Row.columns (row ++ other) = Row.columns row ++ Row.columns other := map_append

@[simp] lemma Row.columns_relabel : Row.columns (Row.relabel schema row) = schema := by
  unfold Row.columns Row.relabel
  rw [map_map]
  exact zipIdx_map_fst 0 schema

lemma columns_project (db exprs row) : Row.columns (project db exprs row) = exprs.map (·.2) := by
  simp [Row.columns,project,Function.comp_def]

def Shaped (schema : List Column) (rows : List Row) : Prop := ∀ row ∈ rows, Row.columns row = schema

lemma Shaped.sub (shaped : Shaped schema rows) (sub : less ⊆ rows) :
    Shaped schema less := fun row mem => shaped row (sub mem)

lemma shaped_takeUpTo (shaped : Shaped schema rows) : Shaped schema (takeUpTo fetch rows) := by
  cases fetch with
  | none => exact shaped
  | some count => exact shaped.sub (take_subset _ _)

lemma shaped_outer (matched : ∀ row ∈ left, ∀ other ∈ right, Row.columns (pair row other) = schema)
    (single : ∀ row ∈ left, Row.columns (lone row) = schema) :
    Shaped schema (Joins.outer test pair lone left right) := by
  intro row mem
  obtain ⟨origin,from_,here⟩ := mem_flatMap.mp mem
  unfold Joins.kept at here
  split at here
  · obtain ⟨other,hit,rfl⟩ := mem_map.mp here
    exact matched origin from_ other (mem_of_mem_filter hit)
  · obtain rfl := mem_singleton.mp here
    exact single origin from_

lemma shaped_joinRows (shapedLeft : Shaped leftSchema left) (shapedRight : Shaped rightSchema right) :
    Shaped (match type with
      | .leftSemi | .leftAnti => leftSchema
      | .rightSemi | .rightAnti => rightSchema
      | .leftMark => leftSchema ++ [markColumn]
      | .rightMark => rightSchema ++ [markColumn]
      | _ => leftSchema ++ rightSchema)
      (joinRows db type condition leftSchema rightSchema left right) := by
  have both : ∀ row ∈ left, ∀ other ∈ right, Row.columns (row ++ other) = leftSchema ++ rightSchema := by
    intro row here other there
    rw [Row.columns_append,shapedLeft row here,shapedRight other there]
  have loneLeft : ∀ row ∈ left, Row.columns (row ++ Row.nulls rightSchema) = leftSchema ++ rightSchema := by
    intro row here
    rw [Row.columns_append,shapedLeft row here,Row.columns_nulls]
  have loneRight : ∀ row ∈ right, Row.columns (Row.nulls leftSchema ++ row) = leftSchema ++ rightSchema := by
    intro row here
    rw [Row.columns_append,shapedRight row here,Row.columns_nulls]
  cases type with
  | inner =>
    intro row mem
    obtain ⟨origin,from_,here⟩ := mem_flatMap.mp mem
    obtain ⟨other,hit,rfl⟩ := mem_map.mp here
    exact both origin from_ other (mem_of_mem_filter hit)
  | left => exact shaped_outer both loneLeft
  | right => exact shaped_outer (fun row here other there => both other there row here) loneRight
  | full =>
    intro row mem
    rcases mem_append.mp mem with here | here
    · exact shaped_outer both loneLeft row here
    · obtain ⟨other,unmatched,rfl⟩ := mem_map.mp here
      exact loneRight other (mem_of_mem_filter unmatched)
  | leftSemi => exact shapedLeft.sub filter_sublist.subset
  | leftAnti => exact shapedLeft.sub filter_sublist.subset
  | rightSemi => exact shapedRight.sub filter_sublist.subset
  | rightAnti => exact shapedRight.sub filter_sublist.subset
  | leftMark =>
    intro row mem
    obtain ⟨origin,from_,rfl⟩ := mem_map.mp mem
    rw [Row.columns_append,shapedLeft origin from_]
    rfl
  | rightMark =>
    intro row mem
    obtain ⟨origin,from_,rfl⟩ := mem_map.mp mem
    rw [Row.columns_append,shapedRight origin from_]
    rfl

lemma columns_groupRow (width : key.length = group.exprs.length) :
    Row.columns (groupRow db group aggs rows level key) = group.schema ++ aggs.map (·.output) := by
  unfold groupRow
  rw [Row.columns_append]
  congr 1
  · exact map_fst_zip (by simp [GroupBy.schema,width])
  · simp [Row.columns,Function.comp_def]

lemma LogicalPlan.shaped (db : Database) (lp : LogicalPlan) : Shaped lp.schema (lp.eval db) := by
  induction lp using inputs_induction with
  | step lp ih =>
    cases lp with
    | tableScan table schema filters fetch =>
      apply shaped_takeUpTo
      intro row mem
      obtain ⟨fields,_,rfl⟩ := mem_map.mp mem
      simp [Row.columns,scanRow,LogicalPlan.schema,Function.comp_def]
    | filter predicate input => exact (ih input (by simp [inputs])).sub filter_sublist.subset
    | projection exprs input =>
      intro row mem
      obtain ⟨origin,_,rfl⟩ := mem_map.mp mem
      exact columns_project db exprs origin
    | subqueryAlias name input =>
      intro row mem
      obtain ⟨origin,from_,rfl⟩ := mem_map.mp mem
      have below := ih input (by simp [inputs]) origin from_
      rw [LogicalPlan.schema,← below]
      simp [Row.columns,Row.qualify,Function.comp_def]
    | join type condition left right =>
      exact shaped_joinRows (ih left (by simp [inputs])) (ih right (by simp [inputs]))
    | union schema inputs =>
      intro row mem
      obtain ⟨origin,_,rfl⟩ := mem_map.mp mem
      exact Row.columns_relabel
    | sort keys fetch input =>
      apply shaped_takeUpTo
      exact (ih input (by simp [inputs])).sub (sortRows_perm db keys _).subset
    | limit skip fetch input =>
      apply shaped_takeUpTo
      exact (ih input (by simp [inputs])).sub (drop_subset _ _)
    | distinct on input =>
      cases on with
      | none => exact (ih input (by simp [inputs])).sub (dedup_subset _)
      | some on =>
        intro row mem
        obtain ⟨wanted,_,here⟩ := mem_flatMap.mp mem
        obtain ⟨origin,_,rfl⟩ := Option.map_eq_some_iff.mp (Option.mem_toList.mp here)
        exact columns_project db on.select origin
    | window exprs input =>
      intro row mem
      obtain ⟨entry,from_,rfl⟩ := mem_map.mp mem
      have inside : entry.1 ∈ input.eval db := (mem_zipIdx' from_).2 ▸ getElem_mem _
      rw [Row.columns_append,ih input (by simp [inputs]) entry.1 inside]
      simp [Row.columns,LogicalPlan.schema,Function.comp_def]
    | aggregate group aggs input =>
      intro row mem
      obtain ⟨level,_,here⟩ := mem_flatMap.mp mem
      obtain ⟨key,keyed,rfl⟩ := mem_map.mp here
      apply columns_groupRow
      unfold GroupBy.keys at keyed
      split at keyed
      · obtain rfl := mem_singleton.mp keyed
        simp
      · obtain ⟨origin,_,rfl⟩ := mem_map.mp (mem_dedup.mp keyed)
        simp [GroupBy.key]

inductive ExchangeMode where
  | hash | broadcast | forward
  deriving DecidableEq, Repr

structure StageDef where
  stageId : Nat
  sql : LogicalPlan
  upstreamStageIds : List Nat
  hashKeyCols : List Nat
  exchange : ExchangeMode

structure Finalize where
  sort : Option (List SortExpr)
  limit : Option Nat

structure DistributedQuery where
  stages : List StageDef
  finalize : Option Finalize

inductive PlanError where
  | unsupported (why : String)
  deriving DecidableEq, Repr

structure Unparser where
  planToSql : LogicalPlan → Except String Unit
  exprToSql : Expr → Except String Unit

def exprSql (unparser : Unparser) (expr : Expr) : Except PlanError Unit :=
  match unparser.exprToSql expr with
  | .ok () => .ok ()
  | .error why => .error (.unsupported s!"auto-distribute: unparse expr: {why}")

def Expr.unqualify : Expr → Expr
  | .column c => .column ⟨none,c.name⟩
  | .literal v => .literal v
  | .and left right => .and left.unqualify right.unqualify
  | .eq left right => .eq left.unqualify right.unqualify
  | .aliased inner name => .aliased inner.unqualify name
  | .other text reads subqueries compute => .other text (reads.map fun c => ⟨none,c.name⟩) subqueries compute

def SortExpr.unqualify (key : SortExpr) : SortExpr := {key with expr := key.expr.unqualify}

def resultTable : TableReference := ⟨[],"result"⟩

/-- Rows in the order of sort keys, with ties in any order. -/
def Ordered {α : Type} (db : Database) (keys : List SortExpr) (read : α → Row) (rows : List α) : Prop :=
  rows.Pairwise fun before after => SortExpr.leAll db keys (read before) (read after)

/-- What the driver may answer with from the rows it gathered. -/
def Finalize.Allows (driver : Database) (finalize : Option Finalize) (gathered out : List Fields) : Prop :=
  match finalize with
  | none => out.Perm gathered
  | some query => ∃ ordered : List Fields, ordered.Perm gathered ∧
      (∀ keys ∈ query.sort, Ordered driver (keys.map SortExpr.unqualify) (tableRow resultTable) ordered) ∧
      out = query.limit.elim ordered ordered.take

/-- What one node may answer a plan with. Filters, projections and aliases keep the order of their
input; the rows of other plans come in any order. -/
def LogicalPlan.Answers (db : Database) : LogicalPlan → List Row → Prop
  | .sort keys fetch input,out => ∃ rows ordered : List Row, input.Answers db rows ∧
      ordered.Perm rows ∧ Ordered db keys id ordered ∧ out = takeUpTo fetch ordered
  | .limit skip fetch input,out => ∃ rows : List Row, input.Answers db rows ∧
      out = takeUpTo (fetch.map (·.value)) (rows.drop (skip.elim 0 (·.value)))
  | .filter predicate input,out => ∃ rows : List Row, input.Answers db rows ∧
      out = rows.filter fun row => predicate.passes db row
  | .projection exprs input,out => ∃ rows : List Row, input.Answers db rows ∧ out = rows.map (project db exprs)
  | .subqueryAlias name input,out => ∃ rows : List Row, input.Answers db rows ∧ out = rows.map (Row.qualify name)
  | lp,out => out.Perm (lp.eval db)

structure Cluster where
  workers : List Database
  partitions : Nat
  positive : 0 < partitions
  bucket : List Value → Nat
  inside : ∀ key, bucket key < partitions
  owner : Nat → Database
  owned : ∀ partition, owner partition ∈ workers

def shuffleInput (count index : Nat) : TableReference :=
  if count = 1 then ⟨[],"shuffle_input"⟩ else ⟨[],"shuffle_input_" ++ toString index⟩

def withInputs (db : Database) (inputs : List (List Fields)) : Database := fun table =>
  ((List.range inputs.length).find? fun index => table = shuffleInput inputs.length index).elim
    (db table) fun index => inputs.getD index []

abbrev Outputs := Nat → Option (StageDef × List Fields)

namespace Cluster
variable (cluster : Cluster)

def bucketOf (stage : StageDef) (fields : Fields) : Nat :=
  if stage.hashKeyCols = [] then 0
  else cluster.bucket (stage.hashKeyCols.map fun index => (fields[index]?.map (·.2)).getD .null)

def readBucket (outputs : Outputs) (partition id : Nat) : List Fields :=
  (outputs id).elim [] fun done => done.2.filter fun fields => cluster.bucketOf done.1 fields = partition

def inputsOf (outputs : Outputs) (stage : StageDef) (partition : Nat) : List (List Fields) :=
  stage.upstreamStageIds.map (cluster.readBucket outputs partition)

def tasks (outputs : Outputs) (stage : StageDef) : List Database :=
  match stage.upstreamStageIds,stage.exchange with
  | [],.forward => cluster.workers.take 1
  | [],_ => cluster.workers
  | _::_,.forward => (cluster.workers.take 1).map fun worker =>
      withInputs worker (cluster.inputsOf outputs stage 0)
  | _::_,_ => (List.range cluster.partitions).map fun partition =>
      withInputs (cluster.owner partition) (cluster.inputsOf outputs stage partition)

def runStage (outputs : Outputs) (stage : StageDef) : List Fields :=
  (cluster.tasks outputs stage).flatMap fun node => (stage.sql.eval node).map Row.fields

def step (outputs : Outputs) (stage : StageDef) : Outputs :=
  Function.update outputs stage.stageId (some (stage,cluster.runStage outputs stage))

def run (stages : List StageDef) : Outputs := stages.foldl cluster.step fun _ => none

def gathered (stages : List StageDef) : List Fields :=
  (stages.getLast?.bind fun stage => cluster.run stages stage.stageId).elim [] (·.2)

def Outcome (driver : Database) (query : DistributedQuery) (out : List Fields) : Prop :=
  Finalize.Allows driver query.finalize (cluster.gathered query.stages) out

end Cluster

namespace Sample

def tables (facts dims : List Fields) : Database := fun table =>
  if table = ⟨[],"fact"⟩ then facts else if table = ⟨[],"dim"⟩ then dims else []

def pair (facts others dims : List Fields) : Cluster where
  workers := [tables facts dims,tables others dims]
  partitions := 2
  positive := by decide
  bucket := fun _ => 0
  inside := fun _ => by decide
  owner := fun _ => tables facts dims
  owned := fun _ => List.mem_cons_self

lemma pair_sharding (facts others dims) :
    Sharding (· ∉ ["dim"]) (pair facts others dims).workers (tables (facts ++ others) dims) where
  replicated worker mem table whole := by
    have dim : table.table = "dim" := by simpa using whole
    have other : table ≠ ⟨[],"fact"⟩ := by
      rintro rfl
      simp at dim
    rcases List.mem_pair.mp mem with rfl | rfl <;> simp [tables,other]
  covers table mine := by
    unfold pair tables
    by_cases fact : table = ⟨[],"fact"⟩
    · simp [fact]
    · have apart : table ≠ ⟨[],"dim"⟩ := by
        rintro rfl
        simp at mine
      simp [fact,apart]

def column (table name : String) : Column := ⟨some ⟨[],table⟩,name⟩

def scan (table : String) (schema : List String) : LogicalPlan := .tableScan ⟨[],table⟩ schema [] none

def writer : Unparser := ⟨fun _ => .ok (),fun _ => .ok ()⟩

def equalKeys : JoinOn := ⟨[(.column (column "fact" "k"),.column (column "dim" "k"))],none,false⟩

end Sample

structure AggSpec where
  func : String
  arg : Expr
  distinct : Bool

/-- The first argument is kept, and `1` for `count(*)`. -/
def AggSpec.classify (unparser : Unparser) (agg : AggExpr) : Except PlanError AggSpec :=
  match agg.args with
  | [] => .ok ⟨agg.func,.literal (.num 1),agg.distinct⟩
  | arg::_ => (exprSql unparser arg).map fun _ => ⟨agg.func,arg,agg.distinct⟩

structure PartialColumn where
  suffix : String
  func : String
  squared : Bool
  deriving DecidableEq, Repr

namespace Value

def sub : Value → Value → Value
  | .num x,.num y => .num (x-y)
  | _,_ => .null

def mul : Value → Value → Value
  | .num x,.num y => .num (x*y)
  | _,_ => .null

def divNonzero : Value → Value → Value
  | .num x,.num y => if y = 0 then .null else .num (x/y)
  | _,_ => .null

def mapNumber (f : Rat → Value) : Value → Value
  | .num x => f x
  | _ => .null

end Value

/-- The columns of an aggregate's partial rows and the expression over their recombined values. -/
structure Decomposition where
  columns : List PartialColumn
  finish : (Rat → Value) → List Value → Value

def combineVariance (less : Rat) (sum squares count : Value) : Value :=
  (squares.sub ((sum.mul sum).divNonzero count)).divNonzero (count.sub (.num less))

def momentColumns : List PartialColumn := [⟨"s","sum",false⟩,⟨"q","sum",true⟩,⟨"c","count",false⟩]

def combineMoments (finish : (Rat → Value) → Rat → Value) (less : Rat) (root : Rat → Value) : List Value → Value
  | [sum,squares,count] => (combineVariance less sum squares count).mapNumber (finish root)
  | _ => .null

def partialCombineSql (func : String) : Except PlanError Decomposition :=
  match func with
  | "sum" => .ok ⟨[⟨"","sum",false⟩],fun _ values => values.headD .null⟩
  | "count" => .ok ⟨[⟨"","count",false⟩],fun _ values => values.headD .null⟩
  | "min" => .ok ⟨[⟨"","min",false⟩],fun _ values => values.headD .null⟩
  | "max" => .ok ⟨[⟨"","max",false⟩],fun _ values => values.headD .null⟩
  | "avg" => .ok ⟨[⟨"s","sum",false⟩,⟨"c","count",false⟩],fun _ values => match values with
      | [sum,count] => sum.divNonzero count
      | _ => .null⟩
  | "stddev" => .ok ⟨momentColumns,combineMoments (fun root => root) 1⟩
  | "var" => .ok ⟨momentColumns,combineMoments (fun _ => .num) 1⟩
  | "stddev_pop" => .ok ⟨momentColumns,combineMoments (fun root => root) 0⟩
  | "var_pop" => .ok ⟨momentColumns,combineMoments (fun _ => .num) 0⟩
  | other => .error (.unsupported s!"auto-distribute: aggregate `{other}` not supported")
end Oxidant.Planner
