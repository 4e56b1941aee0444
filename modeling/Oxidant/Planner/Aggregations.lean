import Oxidant.Planner.BroadcastShapes

/-! How an aggregation is distributed: over a UNION ALL whose arms have different placements by a
producer for every bucket of arms, with one sharded table and a plain input by the partial
aggregation of the whole input on every worker. -/
namespace Oxidant.Planner

namespace LogicalPlan

mutual

def flattenUnionAll : LogicalPlan → List LogicalPlan
  | .union _ inputs => flattenArms inputs
  | lp => [lp]

def flattenArms : List LogicalPlan → List LogicalPlan
  | [] => []
  | input::inputs => input.flattenUnionAll ++ flattenArms inputs

end

def withInputs : LogicalPlan → List LogicalPlan → LogicalPlan
  | .filter predicate _,[input] => .filter predicate input
  | .projection exprs _,[input] => .projection exprs input
  | .subqueryAlias name _,[input] => .subqueryAlias name input
  | .join type condition _ _,[left,right] => .join type condition left right
  | .sort keys fetch _,[input] => .sort keys fetch input
  | .limit skip fetch _,[input] => .limit skip fetch input
  | .distinct on _,[input] => .distinct on input
  | .window exprs _,[input] => .window exprs input
  | .aggregate group aggs _,[input] => .aggregate group aggs input
  | lp,_ => lp

end LogicalPlan

def unionOfArms (fusion : DataFusion) (arms : List LogicalPlan) : Except PlanError LogicalPlan :=
  match arms with
  | [arm] => .ok arm
  | arms => match fusion.tryNewUnion arms with
    | .ok schema => .ok (.union schema arms)
    | .error why => .error (.unsupported s!"auto-distribute: rebuild split union: {why}")

def rebuilt (fusion : DataFusion) (what : String) (lp : LogicalPlan) (inputs : List LogicalPlan) :
    Except PlanError LogicalPlan :=
  match fusion.withNewExprs lp inputs with
  | .ok () => .ok (lp.withInputs inputs)
  | .error why => .error (.unsupported s!"auto-distribute: rebuild union-split {what}: {why}")

def bucketArms (fusion : DataFusion) (name : String) (arms : List LogicalPlan) :
    Except PlanError (Option (LogicalPlan × LogicalPlan)) :=
  let mine := arms.filter fun arm => arm.countTableScans name > 0
  let others := arms.filter fun arm => !(arm.countTableScans name > 0)
  if mine.isEmpty || others.isEmpty then .ok none
  else match unionOfArms fusion mine with
    | .error error => .error error
    | .ok mine => (unionOfArms fusion others).map fun others => some (mine,others)

def splitAbove (fusion : DataFusion) (what : String) (lp : LogicalPlan)
    (place : LogicalPlan → List LogicalPlan) (below : LogicalPlan × LogicalPlan) :
    Except PlanError (Option (LogicalPlan × LogicalPlan)) :=
  match rebuilt fusion what lp (place below.1) with
  | .error error => .error error
  | .ok mine => (rebuilt fusion what lp (place below.2)).map fun others => some (mine,others)

def splitNode (fusion : DataFusion) (lp : LogicalPlan)
    (below : Except PlanError (Option (LogicalPlan × LogicalPlan))) :
    Except PlanError (Option (LogicalPlan × LogicalPlan)) :=
  match below with
  | .error error => .error error
  | .ok none => .ok none
  | .ok (some parts) => splitAbove fusion "node" lp (fun input => [input]) parts

def LogicalPlan.splitUnionBySharding (fusion : DataFusion) (name : String) :
    LogicalPlan → Except PlanError (Option (LogicalPlan × LogicalPlan))
  | .union _ inputs =>
    match bucketArms fusion name (flattenArms inputs) with
    | .ok (some parts) => .ok (some parts)
    | _ => bucketArms fusion name inputs
  | .tableScan .. => .ok none
  | .filter predicate input => splitNode fusion (.filter predicate input) (input.splitUnionBySharding fusion name)
  | .projection exprs input => splitNode fusion (.projection exprs input) (input.splitUnionBySharding fusion name)
  | .subqueryAlias other input =>
    splitNode fusion (.subqueryAlias other input) (input.splitUnionBySharding fusion name)
  | .sort keys fetch input => splitNode fusion (.sort keys fetch input) (input.splitUnionBySharding fusion name)
  | .limit skip fetch input => splitNode fusion (.limit skip fetch input) (input.splitUnionBySharding fusion name)
  | .distinct on input => splitNode fusion (.distinct on input) (input.splitUnionBySharding fusion name)
  | .window exprs input => splitNode fusion (.window exprs input) (input.splitUnionBySharding fusion name)
  | .aggregate group aggs input =>
    splitNode fusion (.aggregate group aggs input) (input.splitUnionBySharding fusion name)
  | .join type condition left right =>
    match left.splitUnionBySharding fusion name,right.splitUnionBySharding fusion name with
    | .error error,_ => .error error
    | _,.error error => .error error
    | .ok none,.ok none => .ok none
    | .ok (some _),.ok (some _) => .ok none
    | .ok (some parts),.ok none =>
      splitAbove fusion "join" (.join type condition left right) (fun input => [input,right]) parts
    | .ok none,.ok (some parts) =>
      splitAbove fusion "join" (.join type condition left right) (fun input => [left,input]) parts

namespace LogicalPlan

def collectAggregates (lp : LogicalPlan) : List (GroupBy × List AggExpr × LogicalPlan) :=
  lp.fold fun node found => (match node with
    | .aggregate group aggs input => [(group,aggs,input)]
    | _ => []) ++ found.flatten

def joinsReplicatedAgg (name : String) (other mine : LogicalPlan) : Bool :=
  other.countTableScans name = 0 && mine.countTableScans name ≥ 1 && other.peelsToAggregateShallow &&
    mine.peelsToAggregateShallow

/-- Whether a replicated aggregate is joined into an arm above the arm's own aggregate. -/
def findReplicatedAggJoin (name : String) (lp : LogicalPlan) : Bool :=
  lp.fold fun node found => (match node with
    | .join _ _ left right => joinsReplicatedAgg name left right || joinsReplicatedAgg name right left
    | _ => false) || found.any id

def innerAdditive (unparser : Unparser) (lp : LogicalPlan) : Bool :=
  lp.collectAggregates.all fun inner => inner.2.2.collectAggregates.isEmpty && inner.1.sets.isNone &&
    inner.2.1.all fun agg => match AggSpec.classify unparser agg with
      | .ok spec => !spec.distinct && (spec.func == "sum" || spec.func == "count")
      | .error _ => false

end LogicalPlan

def outerAdditive (unparser : Unparser) (aggs : List AggExpr) : Bool :=
  aggs.all fun agg => match AggSpec.classify unparser agg with
    | .ok spec => !spec.distinct && spec.func == "sum"
    | .error _ => false

inductive Composition where
  | flat (input : LogicalPlan)
  /-- One partial aggregation for every bucket of arms. A bucket that names no sharded table is
  computed once. -/
  | split (buckets : List (Option String × LogicalPlan))
  | composed (query : DistributedQuery)

/-- The compositions that are not looked into, and the text of the phases of an aggregation. -/
structure Compositions where
  aggregateOverAggregateStages : Peeled → List String → Except PlanError DistributedQuery
  trySplitMultiShardedUnion : Peeled → List String → Except PlanError (Option DistributedQuery)
  planShuffleJoinChain : Peeled → List String → Except PlanError DistributedQuery
  distinctUnionStages : Peeled → String → List String → Except PlanError DistributedQuery
  trySplitUnionAggJoin : Peeled → LogicalPlan → String → LogicalPlan → List String →
    Except PlanError (Option DistributedQuery)
  trySplitUnionNested : Peeled → Peeled → LogicalPlan → List String →
    Except PlanError (Option DistributedQuery)
  phases : Peeled → List AggSpec → Except PlanError Unit

/-- The part of the arms that scans the sharded table, if it is itself an aggregation over a union
to be split. -/
def nestedArm (fusion : DataFusion) (name : String) (mine : LogicalPlan) : Except PlanError (Option Peeled) :=
  match mine.peel fusion.display with
  | .error _ => .ok none
  | .ok arm =>
    if arm.sort.isSome || arm.limit.isSome then .ok none
    else (arm.input.splitUnionBySharding fusion name).map fun parts => parts.map fun _ => arm

/-- What the producers over the two parts of the arms are checked for. -/
def splitFlat (fusion : DataFusion) (others : Compositions) (p : Peeled) (specs : List AggSpec)
    (name : String) (mine rest : LogicalPlan) : Except PlanError (Option Composition) :=
  match mine.rejectUnsafeBroadcastShapes name with
  | .error error => .error error
  | .ok () =>
    if mine.countTableScans name > 1 then .error (.unsupported
      s!"auto-distribute: sharded table `{name}` scanned {mine.countTableScans name}× (self-join / subquery) — not broadcast-safe")
    else if !mine.collectAggregates.isEmpty &&
      !(mine.innerAdditive fusion.toUnparser && outerAdditive fusion.toUnparser p.aggs) then .ok none
    else match p.group.exprs.forM fun entry => exprSql fusion.toUnparser entry.1 with
      | .error error => .error error
      | .ok () => match fusion.fromTail mine with
        | .error error => .error error
        | .ok () => match specs.forM fun spec => (partialCombineSql spec.func).map fun _ => () with
          | .error error => .error error
          | .ok () => match fusion.fromTail rest with
            | .error error => .error error
            | .ok () => (others.phases p specs).map fun _ => some (.split [(some name,mine),(none,rest)])

def trySplitBroadcastUnion (fusion : DataFusion) (others : Compositions) (p : Peeled) (name : String)
    (replicated : List String) : Except PlanError (Option Composition) :=
  match p.aggs.mapM (AggSpec.classify fusion.toUnparser) with
  | .error error => .error error
  | .ok specs =>
    if specs.any (·.distinct) then .ok none
    else match p.input.splitUnionBySharding fusion name with
      | .error error => .error error
      | .ok none => .ok none
      | .ok (some (mine,rest)) =>
        if mine.findReplicatedAggJoin name then
          (others.trySplitUnionAggJoin p mine name rest replicated).map (·.map .composed)
        else match nestedArm fusion name mine with
          | .error error => .error error
          | .ok (some arm) => (others.trySplitUnionNested p arm rest replicated).map (·.map .composed)
          | .ok none => splitFlat fusion others p specs name mine rest

namespace LogicalPlan

def planContainsDistinctWithin (lp : LogicalPlan) : Bool :=
  lp.fold fun node found => (match node with
    | .distinct .. => true
    | _ => false) || found.any id || (node.expressions.flatMap Expr.subqueries).any (·.distinct)

mutual

def flattenDistinctUnion : LogicalPlan → List LogicalPlan
  | .distinct _ input => input.flattenDistinctUnion
  | .union _ inputs => flattenDistinctArms inputs
  | lp => [lp]

def flattenDistinctArms : List LogicalPlan → List LogicalPlan
  | [] => []
  | input::inputs => input.flattenDistinctUnion ++ flattenDistinctArms inputs

end

/-- A UNION DISTINCT below aliases, with arms that scan the sharded table and arms that do not. -/
def mixedDistinctUnion (name : String) : LogicalPlan → Bool
  | .subqueryAlias _ input => input.mixedDistinctUnion name
  | .distinct on (.union schema inputs) =>
    let arms := (distinct on (union schema inputs)).flattenDistinctUnion
    arms.length ≥ 2 && arms.any (fun arm => name ∈ arm.baseTables) && arms.any fun arm => name ∉ arm.baseTables
  | _ => false

/-- The outer join that null-extends the sharded side, below filters and projections: its preserved
side is replicated. -/
def shardedNullExtendedOuterJoin (name : String) : LogicalPlan → Option (JoinType × LogicalPlan × LogicalPlan)
  | .projection _ input => input.shardedNullExtendedOuterJoin name
  | .filter _ input => input.shardedNullExtendedOuterJoin name
  | .subqueryAlias _ input => input.shardedNullExtendedOuterJoin name
  | .join type _ left right =>
    let matched : Bool := match type with
      | .left => right.countTableScans name = 1 && left.countTableScans name = 0
      | .right => left.countTableScans name = 1 && right.countTableScans name = 0
      | _ => false
    if matched then some (type,left,right) else none
  | _ => none

end LogicalPlan

def JoinSideScope.contains (schema : List Column) (asked : Column) : Bool :=
  match asked.relation with
  | some relation => schema.any fun column => column.relation.any (·.table == relation.table)
  | none => schema.any (·.name == asked.name)

def ensureNullExtendedAggregateArgs (fusion : DataFusion) (aggs : List AggExpr)
    (join : JoinType × LogicalPlan × LogicalPlan) : Except PlanError Unit :=
  let extended := match join.1 with
    | .left => join.2.2
    | _ => join.2.1
  aggs.forM fun agg => match AggSpec.classify fusion.toUnparser agg with
    | .error error => .error error
    | .ok spec =>
      let columns := agg.exprs.flatMap Expr.columns
      if spec.distinct then .error (.unsupported
        s!"auto-distribute: DISTINCT aggregate `{fusion.displayAgg agg}` over a sharded null-extended join side is not supported")
      else if columns.isEmpty || !columns.all (JoinSideScope.contains extended.schema) then
        .error (.unsupported
          s!"auto-distribute: aggregate `{fusion.displayAgg agg}` reads columns outside the sharded null-extended join side — broadcasting the join would repeat the replicated preserved side's rows on every worker")
      else .ok ()

def ensureHavingSubqueryTablesReplicated (having : List Expr) (replicated : List String) : Except PlanError Unit :=
  match (having.flatMap Expr.tables).find? (·.table ∉ replicated) with
  | some table => .error (.unsupported
      s!"auto-distribute: subquery over `{table.table}` is only safe when that table is replicated")
  | none => .ok ()

/-- Ungrouped aggregation: partials of every worker, combined in the first partition. -/
def globalAggregationStages (fusion : DataFusion) (others : Compositions) (p : Peeled)
    (sharded : List String) : Except PlanError Composition :=
  match sharded with
  | [name] =>
    if p.input.countTableScans name > 1 then .error (.unsupported
      s!"auto-distribute: sharded table `{name}` scanned multiple times")
    else if p.input.planContainsDistinctWithin then .error (.unsupported
      "auto-distribute: global aggregation over DISTINCT of a sharded table is not supported (per-shard DISTINCT would double-count cross-shard keys)")
    else match p.input.rejectUnsafeBroadcastShapes name with
      | .error error => .error error
      | .ok () => match fusion.fromTail p.input with
        | .error error => .error error
        | .ok () => match p.aggs.mapM (AggSpec.classify fusion.toUnparser) with
          | .error error => .error error
          | .ok specs => (others.phases p specs).map fun _ => .flat p.input
  | _ => .error (.unsupported
      s!"auto-distribute: global aggregation needs exactly one sharded table, found {sharded.length}")

def broadcastGuard (fusion : DataFusion) (p : Peeled) (name : String) : Except PlanError Unit :=
  match p.input.shardedNullExtendedOuterJoin name with
  | some join => ensureNullExtendedAggregateArgs fusion p.aggs join
  | none => p.input.rejectUnsafeBroadcastShapes name

def flatStages (fusion : DataFusion) (others : Compositions) (p : Peeled) (name : String) :
    Except PlanError Composition :=
  match broadcastGuard fusion p name with
  | .error error => .error error
  | .ok () => match fusion.fromTail p.input with
    | .error error => .error error
    | .ok () =>
      if p.input.countTableScans name > 1 then .error (.unsupported
        s!"auto-distribute: sharded table `{name}` scanned {p.input.countTableScans name}× (self-join / subquery) — not broadcast-safe")
      else match p.group.exprs.forM fun entry => exprSql fusion.toUnparser entry.1 with
        | .error error => .error error
        | .ok () => match p.aggs.mapM (AggSpec.classify fusion.toUnparser) with
          | .error error => .error error
          | .ok specs => (others.phases p specs).map fun _ => .flat p.input

def singleShardedStages (fusion : DataFusion) (others : Compositions) (p : Peeled) (name : String)
    (replicated : List String) : Except PlanError Composition :=
  if p.input.mixedDistinctUnion name then
    (others.distinctUnionStages p name replicated).map .composed
  else match trySplitBroadcastUnion fusion others p name replicated with
    | .error error => .error error
    | .ok (some composition) => .ok composition
    | .ok none => flatStages fusion others p name

def aggregationStagesFor (fusion : DataFusion) (others : Compositions) (p : Peeled)
    (replicated : List String) : Except PlanError Composition :=
  match p.input.ensureSubqueryTablesReplicated replicated with
  | .error error => .error error
  | .ok () => match ensureHavingSubqueryTablesReplicated p.having replicated with
    | .error error => .error error
    | .ok () =>
      let sharded := p.input.shardedTables replicated
      if p.group.exprs.isEmpty && p.group.sets.isNone then
        globalAggregationStages fusion others p sharded
      else if sharded.length ≥ 2 then
        if p.input.peelsToInnerAggregate then
          (others.aggregateOverAggregateStages p replicated).map .composed
        else match others.trySplitMultiShardedUnion p replicated with
          | .error error => .error error
          | .ok (some query) => .ok (.composed query)
          | .ok none => (others.planShuffleJoinChain p replicated).map .composed
      else match sharded with
        | [name] =>
          if p.input.peelsToInnerAggregate then
            (others.aggregateOverAggregateStages p replicated).map .composed
          else singleShardedStages fusion others p name replicated
        | _ => .error (.unsupported
            s!"auto-distribute: need exactly one sharded base table (others replicated), found {sharded.length} sharded among {p.input.baseTables}")

lemma ensureSubqueryTablesReplicated_eq_ok {lp : LogicalPlan}
    (checked : lp.ensureSubqueryTablesReplicated replicated = .ok ()) :
    ∀ table ∈ lp.collectSubqueryTables, table ∈ replicated := by
  unfold LogicalPlan.ensureSubqueryTablesReplicated at checked
  split at checked
  · cases checked
  · next nothing =>
    intro table mem
    simpa using List.find?_eq_none.mp nothing table mem

lemma map_flat {phases : Except PlanError Unit}
    (planned : (phases.map fun _ => Composition.flat input) = .ok (.flat flat)) : flat = input := by
  cases phases with
  | error error => cases planned
  | ok _ =>
    cases planned
    rfl

lemma map_composed {query : Except PlanError α} {compose : α → DistributedQuery} :
    (query.map fun q => Composition.composed (compose q)) ≠ .ok (.flat flat) := by
  cases query with
  | error error => intro equal; cases equal
  | ok _ => intro equal; cases equal

lemma globalAggregationStages_flat {fusion : DataFusion}
    (planned : globalAggregationStages fusion others p sharded = .ok (.flat flat)) :
    flat = p.input ∧ ∃ name, sharded = [name] ∧ p.input.rejectUnsafeBroadcastShapes name = .ok () := by
  unfold globalAggregationStages at planned
  split at planned
  · next name =>
    split at planned
    · cases planned
    split at planned
    · cases planned
    split at planned
    · cases planned
    · next safe =>
      split at planned
      · cases planned
      split at planned
      · cases planned
      · exact ⟨map_flat planned,name,rfl,safe⟩
  · cases planned

lemma flatStages_flat {fusion : DataFusion} (planned : flatStages fusion others p name = .ok (.flat flat)) :
    flat = p.input ∧ broadcastGuard fusion p name = .ok () := by
  unfold flatStages at planned
  split at planned
  · cases planned
  · next safe =>
    split at planned
    · cases planned
    split at planned
    · cases planned
    split at planned
    · cases planned
    split at planned
    · cases planned
    · exact ⟨map_flat planned,safe⟩

lemma splitFlat_not_flat : splitFlat fusion others p specs name mine rest ≠ .ok (some (.flat flat)) := by
  intro planned
  unfold splitFlat at planned
  split at planned
  · cases planned
  split at planned
  · cases planned
  split at planned
  · cases planned
  split at planned
  · cases planned
  split at planned
  · cases planned
  split at planned
  · cases planned
  split at planned
  · cases planned
  cases phases : others.phases p specs with
  | error error =>
    rw [phases] at planned
    cases planned
  | ok _ =>
    rw [phases] at planned
    cases planned

lemma map_map_composed {query : Except PlanError (Option DistributedQuery)} :
    (query.map (·.map Composition.composed)) ≠ .ok (some (.flat flat)) := by
  rcases query with error | none | query <;> intro equal <;> cases equal

lemma trySplitBroadcastUnion_not_flat :
    trySplitBroadcastUnion fusion others p name replicated ≠ .ok (some (.flat flat)) := by
  intro planned
  unfold trySplitBroadcastUnion at planned
  split at planned
  · cases planned
  split at planned
  · cases planned
  split at planned
  · cases planned
  · cases planned
  split at planned
  · exact map_map_composed planned
  split at planned
  · cases planned
  · exact map_map_composed planned
  · exact splitFlat_not_flat planned

lemma aggregationStagesFor_flat {fusion : DataFusion}
    (planned : aggregationStagesFor fusion others p replicated = .ok (.flat flat)) :
    flat = p.input ∧
    ∃ name, p.input.ScansOnce replicated name ∧
      (p.input.rejectUnsafeBroadcastShapes name = .ok () ∨ broadcastGuard fusion p name = .ok ()) := by
  unfold aggregationStagesFor at planned
  split at planned
  · cases planned
  next checked =>
  have inside := ensureSubqueryTablesReplicated_eq_ok checked
  split at planned
  · cases planned
  simp only at planned
  split at planned
  · obtain ⟨same,name,once,safe⟩ := globalAggregationStages_flat planned
    exact ⟨same,name,⟨inside,once⟩,Or.inl safe⟩
  split at planned
  · split at planned
    · exact absurd planned map_composed
    split at planned
    · cases planned
    · cases planned
    · exact absurd planned map_composed
  split at planned
  · next name once =>
    split at planned
    · exact absurd planned map_composed
    unfold singleShardedStages at planned
    split at planned
    · exact absurd planned map_composed
    split at planned
    · cases planned
    · next composition split_ =>
      cases planned
      exact absurd split_ trySplitBroadcastUnion_not_flat
    · obtain ⟨same,guarded⟩ := flatStages_flat planned
      exact ⟨same,name,⟨inside,once⟩,Or.inr guarded⟩
  · cases planned

/-- The input of a flat plan, run on every worker, gives its rows, unless an operator above the
sharded scan looks at several rows. -/
theorem flat_input_shard_local {fusion : DataFusion} {others : Compositions} {p : Peeled}
    {replicated : List String} {input : LogicalPlan}
    (planned : aggregationStagesFor fusion others p replicated = .ok (.flat input))
    (strict : ∀ name ∈ p.input.shardedTables replicated, p.input.shardedNullExtendedOuterJoin name = none)
    (rows : p.input.rowByRow (· ∉ replicated)) (workers : List Database) (whole : Database)
    (sharding : Sharding (· ∉ replicated) workers whole) :
    (workers.flatMap fun worker => input.eval worker).Perm (input.eval whole) := by
  obtain ⟨rfl,name,scans,guarded⟩ := aggregationStagesFor_flat planned
  have safe : p.input.rejectUnsafeBroadcastShapes name = .ok () := by
    rcases guarded with safe | guarded
    · exact safe
    · unfold broadcastGuard at guarded
      rw [strict name (by simp [scans.once])] at guarded
      exact guarded
  exact sharding.eval_shardLocal (LogicalPlan.shardLocal_of_safe scans safe rows)

namespace Sample

def fusion : DataFusion where
  toUnparser := writer
  display := fun _ => ""
  displayAgg := fun _ => ""
  displayExpr := fun _ => ""
  tryNewUnion := fun arms => .ok ((arms.map LogicalPlan.schema).headD [])
  withNewExprs := fun _ _ => .ok ()
  fromTail := fun _ => .ok ()

def others : Compositions where
  aggregateOverAggregateStages := fun _ _ => .error (.unsupported "")
  trySplitMultiShardedUnion := fun _ _ => .ok none
  planShuffleJoinChain := fun _ _ => .error (.unsupported "")
  distinctUnionStages := fun _ _ _ => .error (.unsupported "")
  trySplitUnionAggJoin := fun _ _ _ _ _ => .ok none
  trySplitUnionNested := fun _ _ _ _ => .ok none
  phases := fun _ _ => .ok ()

def total (column : Column) : AggExpr where
  func := "sum"
  distinct := false
  filter := none
  args := [.column column]
  output := ⟨none,"total"⟩
  root := fun _ => .null
  compute := fun tuples => if numbers tuples = [] then .null else .num (numbers tuples).sum
  standard := by
    rintro _ ⟨⟩
    rfl

def perKey (key value : Column) (input : LogicalPlan) : Peeled where
  projection := none
  sort := none
  limit := none
  having := []
  aliasProjections := []
  group := ⟨[(.column key,key)],none⟩
  aggs := [total value]
  input := input

def salesOfDims : Peeled := perKey (column "dim" "k") (column "fact" "v")
  (.join .inner equalKeys (scan "fact" ["k","v"]) (scan "dim" ["k"]))

theorem salesOfDims_shard_local :
    aggregationStagesFor fusion others salesOfDims ["dim"] = .ok (.flat salesOfDims.input) ∧
    ((pair [[("k",.num 1),("v",.num 7)]] [[("k",.num 2),("v",.num 5)]] dims).workers.flatMap
        fun worker => salesOfDims.input.eval worker).Perm
      (salesOfDims.input.eval (tables [[("k",.num 1),("v",.num 7)],[("k",.num 2),("v",.num 5)]] dims)) :=
  have planned : aggregationStagesFor fusion others salesOfDims ["dim"] = .ok (.flat salesOfDims.input) := by rfl
  ⟨planned,flat_input_shard_local planned (by decide) (by decide) _ _ (pair_sharding [_] [_] dims)⟩

def salesOfOne : Peeled := perKey (column "x" "k") (column "x" "v")
  (.subqueryAlias ⟨[],"x"⟩ (.limit none (some ⟨1,true⟩) (scan "fact" ["k","v"])))

theorem limit_once_per_worker :
    aggregationStagesFor fusion others salesOfOne ["dim"] = .ok (.flat salesOfOne.input) ∧
    salesOfOne.input.countTableScans "fact" = 1 ∧ salesOfOne.input.shardedNullExtendedOuterJoin "fact" = none ∧
    Sharding (· ∉ ["dim"]) (pair [[("k",.num 1),("v",.num 7)]] [[("k",.num 2),("v",.num 5)]] dims).workers
      (tables [[("k",.num 1),("v",.num 7)],[("k",.num 2),("v",.num 5)]] dims) ∧
    ¬((pair [[("k",.num 1),("v",.num 7)]] [[("k",.num 2),("v",.num 5)]] dims).workers.flatMap
        fun worker => salesOfOne.input.eval worker).Perm
      (salesOfOne.input.eval (tables [[("k",.num 1),("v",.num 7)],[("k",.num 2),("v",.num 5)]] dims)) := by
  refine ⟨rfl,by decide,rfl,pair_sharding [_] [_] dims,?_⟩
  intro same
  have lengths := same.length_eq
  revert lengths
  decide

end Sample
end Oxidant.Planner
