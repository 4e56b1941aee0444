import Mathlib.Algebra.BigOperators.Group.Multiset.Basic
import Mathlib.Algebra.Order.BigOperators.Group.List
import Mathlib.Algebra.Order.Group.Multiset
import Oxidant.Lib.Traverse
import Oxidant.Shuffle.Query

/-! The recomputation of lost upstream buckets. An endpoint counts as readable when it answers, and
one that has lost its entries answers with a placeholder; the producer that is run again is the one
whose partition is the position of the endpoint. Leaf scans come back by it exactly when no worker
that has lost rows answers the probe. -/
namespace Oxidant.Shuffle
open List
open Streaming (RecordBatch Row)

/-- Which pulls fail, which workers are healthy, and where a producer that is run again puts its
output. A leaf scans the shard of the worker it lands on. -/
structure Network (engine : Engine) where
  fails : Nat → String → Nat → Bool
  healthy : String → Bool
  produced : StageTicket → String → Except Error (String × Schema × List (List RecordBatch))
  scans : ∀ ticket target landed made, ticket.upstreamStageIds = [] → produced ticket target = .ok (landed,made) →
    engine.produce ticket.stageSql ticket.hashKeyCols ticket.numPartitions landed [] = .ok made
  now : Nat

variable {engine : Engine}

def Network.readable (net : Network engine) (nodes : String → Node) (stage : Nat) (endpoint : String) (bucket : Nat) :
    Bool :=
  if net.fails stage endpoint bucket then false
  else match (nodes endpoint).pullBucket stage bucket with
    | .ok batches => !batches.isEmpty
    | .error _ => false

def commitAt (now : Nat) (nodes : String → Node) (rerun : String × Output) : String → Node :=
  Function.update nodes rerun.1 ((nodes rerun.1).commit rerun.2 now)

/-- A forwarded upstream is produced, and read, on the first endpoint only. -/
def StageTicket.probeEndpoints (consumer : StageTicket) (stage : StageDef) : List String :=
  if stage.exchange = .forward then consumer.upstreamEndpoints.take 1 else consumer.upstreamEndpoints

namespace QueryPlan
variable (plan : QueryPlan) (net : Network engine) (consumer : StageTicket)

def producerTicket (stage : StageDef) (i : Nat) : StageTicket where
  stageId := stage.stageId
  partitionId := i
  numPartitions := consumer.numPartitions
  upstreamEndpoints := if stage.upstreamStageIds.isEmpty then [] else consumer.upstreamEndpoints
  stageSql := stage.sql
  hashKeyCols := stage.hashKeyCols
  upstreamStageIds := stage.upstreamStageIds
  produce := true
  coalesceReadModulus := 0
  forwardUpstreamStageIds := forwardUpstreams stage plan.stages

def recomputeTarget (endpoint : String) : Except Error String :=
  if net.healthy endpoint then .ok endpoint
  else match plan.cluster.workers.find? fun other => other ≠ endpoint with
    | some other => .ok other
    | none => .error (.execution "recompute: no healthy worker")

def recomputeEndpoint (stage : StageDef) (nodes : String → Node) (endpoint : String) (i : Nat) :
    Except Error (String → Node) :=
  if consumer.readBuckets.all (net.readable nodes stage.stageId endpoint) then .ok nodes
  else do
    let target ← plan.recomputeTarget net endpoint
    let (landed,schema,buckets) ← net.produced (plan.producerTicket consumer stage i) target
    return commitAt net.now nodes (landed,⟨⟨stage.stageId,i⟩,schema,buckets⟩)

def recomputeUpstream (nodes : String → Node) (up : Nat) : Except Error (String → Node) :=
  match plan.stage up with
  | none => .error (.execution s!"recompute: unknown stage {up}")
  | some stage => (consumer.probeEndpoints stage).zipIdx.foldlM (fun nodes (endpoint,i) =>
      plan.recomputeEndpoint net consumer stage nodes endpoint i) nodes

def recomputeUpstreamProducers (nodes : String → Node) : Except Error (String → Node) :=
  consumer.upstreamStageIds.foldlM (plan.recomputeUpstream net consumer) nodes

end QueryPlan

def Node.entries (node : Node) (stage : Nat) : List Output :=
  node.stageOutputs.filter fun output => output.key.stage = stage

def Node.rows (node : Node) (stage bucket : Nat) : Multiset Row :=
  ((node.entries stage).map fun output => (rowsOf (output.buckets[bucket]?.getD []) : Multiset Row)).sum

def StageTicket.upstreamRows (consumer : StageTicket) (nodes : String → Node) (up bucket : Nat) : Multiset Row :=
  ((consumer.endpointsOf up).map fun endpoint => (nodes endpoint).rows up bucket).sum

/-- The consumer reads of every upstream what was first produced. -/
def StageTicket.Restored (consumer : StageTicket) (original after : String → Node) : Prop :=
  ∀ up ∈ consumer.upstreamStageIds, ∀ bucket ∈ consumer.readBuckets,
    consumer.upstreamRows after up bucket = consumer.upstreamRows original up bucket

def losing (lost : String → Bool) (original : String → Node) : String → Node :=
  fun endpoint => if lost endpoint then {stageOutputTtl := (original endpoint).stageOutputTtl}
    else original endpoint

/-- The probe of an endpoint fails on a bucket that the consumer needs. -/
def StageTicket.misses (consumer : StageTicket) (net : Network engine) (up : Nat) (endpoint : String) : Bool :=
  consumer.readBuckets.any (net.fails up endpoint)

/-- A task of a stage as it is dispatched. -/
def QueryPlan.taskTicket (plan : QueryPlan) (stage : StageDef) (partition modulus : Nat) (produce : Bool) :
    StageTicket :=
  stageTicket stage partition plan.cluster.numPartitions modulus plan.cluster produce plan.stages

/-- Every upstream of a stage is a leaf, and each of its tasks has put its scan on its worker. -/
def QueryPlan.Scanned (plan : QueryPlan) (engine : Engine) (stage : StageDef) (original : String → Node) : Prop :=
  ∀ up ∈ stage.upstreamStageIds, ∃ leaf, plan.stage up = some leaf ∧ leaf.upstreamStageIds = [] ∧
    ∀ run ∈ plan.producerTasks leaf, ∃ made, engine.produce run.ticket.stageSql run.ticket.hashKeyCols
        run.ticket.numPartitions run.endpoint [] = .ok made ∧
      (original run.endpoint).entries up = [⟨⟨up,run.ticket.partitionId⟩,made.1,made.2⟩]

/-- A worker whose probe fails is healthy, and what is run again for it lands on it. -/
def Network.Returns (net : Network engine) (consumer : StageTicket) : Prop :=
  ∀ up ∈ consumer.upstreamStageIds, ∀ endpoint ∈ consumer.endpointsOf up, consumer.misses net up endpoint = true →
    net.healthy endpoint = true ∧
      ∀ ticket landed made, net.produced ticket endpoint = .ok (landed,made) → landed = endpoint

/-- Nothing on the node is past its time to live. -/
def Node.Fresh (now : Nat) (node : Node) : Prop :=
  node.stageOutputTtl ≠ 0 → ∀ stamp ∈ node.stageInserted, now - stamp.2 < node.stageOutputTtl

lemma orEmpty_ne_nil : BucketCache.orEmpty schema batches ≠ [] := by
  simp only [BucketCache.orEmpty]
  split
  · simp
  · next filled => simpa using filled

lemma Node.pullBucket_answers (node : Node) :
    ∃ batches, node.pullBucket stage bucket = .ok batches ∧ batches ≠ [] := by
  have each : ∀ schema, ∀ entry ∈ ((node.stageOutputs.map (Node.serve node.stageInserted bucket)).filter
      fun entry => entry.key.stage = stage).insertionSort fun first second =>
        stampLe first.stamp second.stamp = true,
      ∃ value, readEntry stage bucket schema entry = .ok value := by
    intro schema entry mem
    rw [mem_insertionSort] at mem
    obtain ⟨output,_,rfl⟩ := mem_map.mp (mem_of_mem_filter mem)
    exact ⟨_,rfl⟩
  have read : ∃ batches, node.readShuffle stage bucket = .ok batches := by
    unfold Node.readShuffle serveStage
    simp only
    split
    · exact ⟨_,rfl⟩
    · next freshest _ =>
      obtain ⟨parts,made⟩ := Lib.exists_mapM_eq_ok (each freshest.schema)
      rw [made]
      exact ⟨_,rfl⟩
  obtain ⟨batches,served⟩ := read
  exact ⟨_,by rw [Node.pullBucket,served]; rfl,orEmpty_ne_nil⟩

lemma StageTicket.misses_eq (consumer : StageTicket) (net : Network engine) (nodes : String → Node) :
    consumer.readBuckets.all (net.readable nodes up endpoint) = !consumer.misses net up endpoint := by
  unfold misses
  rw [not_any_eq_all_not]
  congr 1
  funext bucket
  obtain ⟨batches,answer,filled⟩ := (nodes endpoint).pullBucket_answers
  unfold Network.readable
  rw [answer]
  cases net.fails up endpoint bucket with
  | true => rfl
  | false => simpa using filled

namespace Node
variable {node : Node}

lemma Fresh.commit_outputs (fresh : node.Fresh now) (output : Output) :
    (node.commit output now).stageOutputs =
      node.stageOutputs.filter (fun other => other.key ≠ output.key) ++ [output] := by
  rw [Node.commit_outputs]
  congr 1
  apply filter_congr
  intro other _
  have young : ¬(node.stageOutputTtl ≠ 0 ∧ node.expired now other.key = true) := by
    rintro ⟨limited,aged⟩
    obtain ⟨stamp,mem,old⟩ := any_eq_true.mp aged
    have := fresh limited stamp mem
    simp only [decide_eq_true_eq] at old
    omega
  simp [young]

lemma Fresh.entries_commit (fresh : node.Fresh now) (output : Output) (stage : Nat) :
    (node.commit output now).entries stage =
      if output.key.stage = stage then (node.entries stage).filter (fun other => other.key ≠ output.key) ++ [output]
      else node.entries stage := by
  unfold entries
  rw [fresh.commit_outputs,filter_append,filter_filter,filter_filter,filter_singleton]
  by_cases here : output.key.stage = stage
  · simp only [here,decide_true,cond_true,if_true,Bool.and_comm]
  · simp only [here,decide_false,cond_false,if_false,append_nil]
    apply filter_congr
    intro other _
    by_cases same : other.key = output.key
    · simp [same,here]
    · simp [same]

lemma Fresh.commit (fresh : node.Fresh now) (output : Output) : (node.commit output now).Fresh now := by
  intro limited stamp mem
  rw [commit_ttl] at limited ⊢
  have among : stamp ∈ node.stageInserted ∨ stamp = (output.key,now) := by
    unfold Node.commit noteStageOutputInsert at mem
    simp only at mem
    split at mem
    · simpa [insertOutput] using (mem_append.mp mem).imp_left mem_of_mem_filter
    · simpa [insertOutput] using (mem_append.mp (mem_of_mem_filter mem)).imp_left mem_of_mem_filter
  rcases among with old | rfl
  · exact fresh limited stamp old
  · simp only [Nat.sub_self]
    omega

end Node

/-- How far the recomputation has come: on each endpoint an upstream is whole or missing, missing for
good where a lost endpoint answers, and back where a visited one does not. -/
structure Mended (net : Network engine) (consumer : StageTicket) (lost : String → Bool) (original : String → Node)
    (visited : Nat → String → Prop) (nodes : String → Node) : Prop where
  fresh : ∀ endpoint, (nodes endpoint).Fresh net.now
  either : ∀ up ∈ consumer.upstreamStageIds, ∀ endpoint ∈ consumer.endpointsOf up,
    (nodes endpoint).entries up = [] ∨ (nodes endpoint).entries up = (original endpoint).entries up
  gone : ∀ up ∈ consumer.upstreamStageIds, ∀ endpoint ∈ consumer.endpointsOf up, lost endpoint = true →
    consumer.misses net up endpoint = false → (nodes endpoint).entries up = []
  whole : ∀ up ∈ consumer.upstreamStageIds, ∀ endpoint ∈ consumer.endpointsOf up,
    lost endpoint = false ∨ visited up endpoint ∧ consumer.misses net up endpoint = true →
    (nodes endpoint).entries up = (original endpoint).entries up

lemma Mended.start (net : Network engine) (consumer : StageTicket) (lost : String → Bool)
    (fresh : ∀ endpoint, (original endpoint).Fresh net.now) :
    Mended net consumer lost original (fun _ _ => False) (losing lost original) where
  fresh endpoint := by
    unfold losing
    split
    · exact fun _ stamp mem => nomatch mem
    · exact fresh endpoint
  either up _ endpoint _ := by
    unfold losing
    split
    · exact .inl rfl
    · exact .inr rfl
  gone up _ endpoint _ lost _ := by
    unfold losing
    rw [if_pos lost]
    rfl
  whole up _ endpoint _ kept := by
    unfold losing
    rw [if_neg (by simpa using kept)]

section Loop
variable {plan : QueryPlan} {net : Network engine} {consumer : StageTicket} {lost : String → Bool}
  {original nodes : String → Node} {visited : Nat → String → Prop}

lemma Mended.weaken (mended : Mended net consumer lost original visited nodes)
    (fewer : ∀ up endpoint, less up endpoint → visited up endpoint) :
    Mended net consumer lost original less nodes :=
  ⟨mended.fresh,mended.either,mended.gone,fun up mem endpoint there kept =>
    mended.whole up mem endpoint there (kept.imp_right (And.imp_left (fewer up endpoint)))⟩

/-- One scan is put back as it was. -/
lemma Mended.commit (mended : Mended net consumer lost original visited nodes)
    (misses : consumer.misses net up endpoint = true) (scan : (original endpoint).entries up = [output])
    (key : output.key.stage = up) :
    Mended net consumer lost original (fun other place => visited other place ∨ other = up ∧ place = endpoint)
      (commitAt net.now nodes (endpoint,output)) := by
  have entries : ∀ other ∈ consumer.upstreamStageIds, ∀ place ∈ consumer.endpointsOf other,
      (commitAt net.now nodes (endpoint,output) place).entries other = if place = endpoint ∧ other = up
        then (original endpoint).entries up else (nodes place).entries other := by
    intro other mem place there
    unfold commitAt
    dsimp only
    by_cases here : place = endpoint
    · subst here
      rw [Function.update_self,(mended.fresh place).entries_commit,key]
      by_cases same : other = up
      · subst same
        rw [if_pos rfl,if_pos ⟨rfl,rfl⟩]
        rcases mended.either other mem place there with none | some_
        · simp [none,scan]
        · simp [some_,scan]
      · rw [if_neg (Ne.symm same),if_neg fun both => same both.2]
    · rw [Function.update_of_ne here,if_neg fun both => here both.1]
  refine ⟨fun place => ?_,fun other mem place there => ?_,fun other mem place there gone answers => ?_,
    fun other mem place there kept => ?_⟩
  · by_cases here : place = endpoint
    · subst here
      simp only [commitAt,Function.update_self]
      exact (mended.fresh place).commit output
    · simp only [commitAt,Function.update_of_ne here]
      exact mended.fresh place
  · rw [entries other mem place there]
    split
    · next same => exact .inr (by rw [same.1,same.2])
    · exact mended.either other mem place there
  · rw [entries other mem place there,if_neg]
    · exact mended.gone other mem place there gone answers
    · rintro ⟨rfl,rfl⟩
      rw [misses] at answers
      cases answers
  · rw [entries other mem place there]
    split
    · next same => rw [same.1,same.2]
    · next apart =>
      refine mended.whole other mem place there (kept.imp_right fun ⟨seen,fails⟩ => ⟨?_,fails⟩)
      exact seen.resolve_right fun same => apart ⟨same.2,same.1⟩

section Visits
variable {stage leaf : StageDef} (scanned : plan.Scanned engine stage original)
  (is_ : consumer = plan.taskTicket stage partitionId modulus produce) (mem : up ∈ stage.upstreamStageIds)
include is_ mem

lemma endpointsOf_leaf (found : plan.stage up = some leaf) :
    consumer.endpointsOf up = consumer.probeEndpoints leaf := by
  subst is_
  have forwards : up ∈ forwardUpstreams stage plan.stages ↔ leaf.exchange = .forward := by
    have there : plan.stages.find? (fun found => found.stageId = up) = some leaf := found
    simp [forwardUpstreams,mem,there]
  simp only [StageTicket.endpointsOf,StageTicket.probeEndpoints,QueryPlan.taskTicket,stageTicket,forwards]

include scanned

/-- What the recomputation runs for an endpoint is the task that was first run there. -/
lemma scan_of_probe (found : plan.stage up = some leaf)
    (there : (endpoint,i) ∈ (consumer.probeEndpoints leaf).zipIdx) :
    leaf.upstreamStageIds = [] ∧
    ∃ made, engine.produce leaf.sql leaf.hashKeyCols consumer.numPartitions endpoint [] = .ok made ∧
      (original endpoint).entries up = [⟨⟨up,i⟩,made.1,made.2⟩] := by
  subst is_
  obtain ⟨_,same,none,runs⟩ := scanned up mem
  cases found.symm.trans same
  have workers : (plan.taskTicket stage partitionId modulus produce).upstreamEndpoints = plan.cluster.workers := by
    have some_ : stage.upstreamStageIds.isEmpty = false := by
      cases ids : stage.upstreamStageIds with
      | nil => simp [ids] at mem
      | cons _ _ => rfl
    simp [QueryPlan.taskTicket,stageTicket,some_]
  have run : ⟨endpoint,stageTicket leaf i plan.cluster.numPartitions 0 plan.cluster true plan.stages⟩ ∈
      plan.producerTasks leaf := by
    unfold StageTicket.probeEndpoints at there
    rw [workers] at there
    exact mem_map.mpr ⟨(endpoint,i),there,rfl⟩
  obtain ⟨made,produced,entries⟩ := runs _ run
  exact ⟨none,made,produced,entries⟩

lemma Mended.visit (returns : net.Returns consumer) (found : plan.stage up = some leaf)
    (there : (endpoint,i) ∈ (consumer.probeEndpoints leaf).zipIdx)
    (mended : Mended net consumer lost original visited nodes)
    (done : plan.recomputeEndpoint net consumer leaf nodes endpoint i = .ok later) :
    Mended net consumer lost original (fun other place => visited other place ∨ other = up ∧ place = endpoint)
      later := by
  obtain ⟨none,made,produced,scan⟩ := scan_of_probe scanned is_ mem found there
  have number : leaf.stageId = up := by simpa using find?_some found
  unfold QueryPlan.recomputeEndpoint at done
  rw [number,consumer.misses_eq] at done
  cases misses : consumer.misses net up endpoint with
  | false =>
    simp only [misses,Bool.not_false,if_true] at done
    cases done
    refine ⟨mended.fresh,mended.either,mended.gone,fun other mem place there kept => ?_⟩
    refine mended.whole other mem place there (kept.imp_right fun ⟨seen,fails⟩ => ⟨seen.resolve_right ?_,fails⟩)
    rintro ⟨rfl,rfl⟩
    rw [misses] at fails
    cases fails
  | true =>
    have place : endpoint ∈ consumer.endpointsOf up := by
      rw [endpointsOf_leaf is_ mem found]
      exact mem_of_getElem? (mem_zipIdx_iff_getElem?.mp there)
    obtain ⟨healthy,home⟩ := returns up (is_ ▸ mem) endpoint place misses
    simp only [misses,Bool.not_true,Bool.false_eq_true,if_false,QueryPlan.recomputeTarget,healthy,if_true,bind,
      Except.bind] at done
    cases ran : net.produced (plan.producerTicket consumer leaf i) endpoint with
    | error e => simp [ran] at done
    | ok result =>
      obtain ⟨landed,again⟩ := result
      obtain rfl := home _ _ _ ran
      have same := net.scans _ _ _ _ none ran
      cases same.symm.trans produced
      simp only [ran,pure,Except.pure,Except.ok.injEq] at done
      subst done
      exact mended.commit misses scan rfl

lemma Mended.visitAll (returns : net.Returns consumer) (mended : Mended net consumer lost original visited nodes)
    (done : plan.recomputeUpstream net consumer nodes up = .ok later) :
    Mended net consumer lost original
      (fun other place => visited other place ∨ other = up ∧ place ∈ consumer.endpointsOf up) later := by
  obtain ⟨leaf,found,_,_⟩ := scanned up mem
  unfold QueryPlan.recomputeUpstream at done
  simp only [found] at done
  let seenAt (seen : List (String × Nat)) (other : Nat) (place : String) : Prop :=
    visited other place ∨ other = up ∧ ∃ i, (place,i) ∈ seen
  have visits := Lib.foldlM_visits (fun seen => Mended net consumer lost original (seenAt seen)) [] ?_ ?_ done
  · refine visits.weaken fun other place covered => covered.imp_right fun ⟨same,there⟩ => ⟨same,?_⟩
    rw [endpointsOf_leaf is_ mem found] at there
    obtain ⟨i,at_⟩ := getElem?_of_mem there
    exact ⟨i,by simpa [mem_zipIdx_iff_getElem?] using at_⟩
  · rintro seen ⟨endpoint,i⟩ there state next kept visited_
    refine (kept.visit scanned is_ mem returns found there visited_).weaken ?_
    rintro other place (before | ⟨same,i,among⟩)
    · exact .inl (.inl before)
    · rcases mem_cons.mp among with here | earlier
      · cases here
        exact .inr ⟨same,rfl⟩
      · exact .inl (.inr ⟨same,i,earlier⟩)
  · refine mended.weaken ?_
    rintro other place (before | ⟨_,_,among⟩)
    · exact before
    · cases among

end Visits

/-- In the end the consumer reads all of an upstream but what lost endpoints answer for. -/
lemma Mended.upstreamRows (mended : Mended net consumer lost original
      (fun up place => up ∈ consumer.upstreamStageIds ∧ place ∈ consumer.endpointsOf up) nodes)
    (mem : up ∈ consumer.upstreamStageIds) (bucket) :
    consumer.upstreamRows nodes up bucket =
      ((consumer.endpointsOf up).map fun endpoint => if lost endpoint && !consumer.misses net up endpoint then 0
        else (original endpoint).rows up bucket).sum := by
  refine congrArg sum (map_congr_left fun endpoint there => ?_)
  unfold Node.rows
  split
  · next gone =>
    rw [Bool.and_eq_true,Bool.not_eq_true'] at gone
    rw [mended.gone up mem endpoint there gone.1 gone.2]
    rfl
  · next kept =>
    rw [mended.whole up mem endpoint there]
    cases gone : lost endpoint with
    | false => exact .inl rfl
    | true => exact .inr ⟨⟨mem,there⟩,by simpa [gone] using kept⟩

end Loop

lemma sum_sparse_iff (gone : α → Bool) (rows : α → Multiset β) (items : List α) :
    (items.map fun item => if gone item then 0 else rows item).sum = (items.map rows).sum ↔
      ∀ item ∈ items, gone item = true → rows item = 0 := by
  have less : ∀ item, (if gone item then 0 else rows item) ≤ rows item := by
    intro item
    split
    · exact Multiset.zero_le _
    · exact le_rfl
  induction items with
  | nil => simp
  | cons item rest ih =>
    simp only [map_cons,sum_cons,forall_mem_cons]
    refine (add_eq_add_iff_eq_and_eq (less item) (sum_le_sum fun other _ => less other)).trans (and_congr ?_ ih)
    cases gone item <;> simp [eq_comm]

namespace QueryPlan
namespace Sample

def row (value : Int) : RecordBatch := {schema := [⟨"v",.int64⟩],rows := [[some (.int value)]]}

def plan : QueryPlan where
  cluster := {workers := ["a:1","b:1"],numPartitions := 1}
  stages := [{stageId := 0,hashKeyCols := [0]},{stageId := 1,upstreamStageIds := [0]}]
  output := {stageId := 1,upstreamStageIds := [0]}

def shard (endpoint : String) : Schema × List (List RecordBatch) :=
  ([⟨"v",.int64⟩],[[row (if endpoint = "a:1" then 7 else 8)]])

def shards : Engine where
  produce _ _ _ endpoint _ := .ok (shard endpoint)
  answer _ _ _ := .ok []

def scanned (endpoint : String) : Node :=
  {stageOutputs := [⟨⟨0,if endpoint = "a:1" then 0 else 1⟩,(shard endpoint).1,(shard endpoint).2⟩]}

def returned : Network shards where
  fails _ endpoint _ := endpoint = "b:1"
  healthy _ := true
  produced _ target := .ok (target,shard target)
  scans _ _ _ _ _ made := by
    cases made
    rfl
  now := 0

def consumer : StageTicket := plan.taskTicket plan.output 0 1 false

def restarted : Network shards := {returned with fails := fun _ _ _ => false}

end Sample
end QueryPlan

end Oxidant.Shuffle
