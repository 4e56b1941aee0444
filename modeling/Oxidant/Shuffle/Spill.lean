import Oxidant.Streaming.Source

/-! Shuffle buckets in memory and on disk: a bucket's files are the base file and the segments appended
after it, and every write can fail. The stages of a query, how the driver spreads them over the
workers and the tickets it sends. -/
namespace Oxidant.Shuffle
open Streaming (Field RecordBatch)

abbrev Schema := List Field

structure Batch extends RecordBatch where
  memory : Nat
  deriving DecidableEq, Repr

def newEmpty (schema : Schema) : RecordBatch := {schema,rows := []}

structure Scope where
  stage : Nat
  src : Nat
  deriving DecidableEq, Repr

structure SpillFile where
  batches : List RecordBatch
  damage : Option String := none
  deriving DecidableEq, Repr

/-- Where the write of a file gives up, and what is wrong with what it has written. -/
inductive FaultPoint where
  | create
  | writer (damage : Option String)
  | write (batches : Nat) (damage : Option String)
  | finish (damage : Option String)
  deriving DecidableEq, Repr

structure Fault where
  point : FaultPoint
  error : String
  deriving DecidableEq, Repr

/-- What a failed write leaves in place of the file, if it touched it. -/
def Fault.left (fault : Fault) (batches : List RecordBatch) : Option SpillFile :=
  match fault.point with
  | .create => none
  | .writer damage => some {batches := [],damage}
  | .write count damage => some {batches := batches.take count,damage}
  | .finish damage => some {batches,damage}

def Fault.display (fault : Fault) (path : String) : String :=
  let e := fault.error
  match fault.point with
  | .create => s!"spill create {path}: {e}"
  | .writer _ => s!"spill writer: {e}"
  | .write _ _ => s!"spill write: {e}"
  | .finish _ => s!"spill finish: {e}"

/-- The spill directory of a worker, with the outcomes of the writes to come; a write past them
succeeds. -/
structure Disk where
  files : Scope → Nat → List SpillFile
  faults : List (Option Fault) := []

namespace Disk

def put (disk : Disk) (scope : Scope) (partition : Nat) (files : List SpillFile) : Disk :=
  {disk with files := fun other bucket =>
    if other = scope ∧ bucket = partition then files else disk.files other bucket}

/-- `write_ipc_file`: the file is made, or the outcome is an error and what it leaves. -/
def writeIpcFile (disk : Disk) (path : String) (scope : Scope) (partition : Nat)
    (place : SpillFile → List SpillFile → List SpillFile) (batches : List RecordBatch) :
    Except Error Unit × Disk :=
  let files := disk.files scope partition
  match disk.faults with
  | [] => (.ok (),disk.put scope partition (place {batches} files))
  | none::rest => (.ok (),{disk.put scope partition (place {batches} files) with faults := rest})
  | some fault::rest =>
    let files := (fault.left batches).elim files (place · files)
    (.error (.io (fault.display path)),{disk.put scope partition files with faults := rest})

def readIpcFile (file : SpillFile) : Except Error (List RecordBatch) :=
  match file.damage with
  | none => .ok file.batches
  | some e => .error (.io s!"spill batch: {e}")

def readFiles : List SpillFile → Except Error (List RecordBatch)
  | [] => .ok []
  | file::rest => do
    let batches ← readIpcFile file
    let later ← readFiles rest
    return batches ++ later

def base (file : SpillFile) (files : List SpillFile) : List SpillFile := file::files.tail

def segment (file : SpillFile) (files : List SpillFile) : List SpillFile := files ++ [file]

end Disk

structure SpillStore where
  root : String := ""
  forceSpill : Bool := false
  memoryLimitBytes : Option Nat := none
  totalLimitBytes : Option Nat := none
  deriving DecidableEq, Repr

def estimatedBatchBytes (batches : List Batch) : Nat := (batches.map Batch.memory).sum

def estimatedBucketBytes (buckets : List (List Batch)) : Nat := estimatedBatchBytes buckets.flatten

namespace SpillStore
variable (store : SpillStore)

def path (scope : Scope) (partition : Nat) : String :=
  let (root,stage,src) := (store.root,scope.stage,scope.src)
  s!"{root}/stage_{stage}_src{src}_part_{partition}.arrow"

def segmentPath (scope : Scope) (partition seq : Nat) : String :=
  let (root,stage,src) := (store.root,scope.stage,scope.src)
  s!"{root}/stage_{stage}_src{src}_part_{partition}.seg{seq}.arrow"

def shouldSpillBytes (bytes : Nat) : Bool :=
  store.forceSpill || store.memoryLimitBytes.any fun limit => limit ≤ bytes

def shouldSpill (buckets : List (List Batch)) : Bool :=
  store.shouldSpillBytes (estimatedBucketBytes buckets)

def writeBucket (disk : Disk) (scope : Scope) (partition : Nat) (batches : List RecordBatch) :
    Except Error Unit × Disk :=
  disk.writeIpcFile (store.path scope partition) scope partition Disk.base batches

/-- The first write of a bucket makes its base file, each later one a segment. -/
def appendBatchesToBucket (disk : Disk) (scope : Scope) (partition : Nat)
    (batches : List RecordBatch) : Except Error Unit × Disk :=
  if batches.isEmpty then (.ok (),disk)
  else if (disk.files scope partition).isEmpty then store.writeBucket disk scope partition batches
  else
    let seq := (disk.files scope partition).length - 1
    disk.writeIpcFile (store.segmentPath scope partition seq) scope partition Disk.segment batches

def readBucket (disk : Disk) (scope : Scope) (partition : Nat) : Except Error (List RecordBatch) :=
  Disk.readFiles (disk.files scope partition)

def clearStage (disk : Disk) (stage : Nat) : Disk :=
  {disk with files := fun scope partition =>
    if scope.stage = stage then [] else disk.files scope partition}

def clearScopedStage (disk : Disk) (scope : Scope) : Disk :=
  {disk with files := fun other partition =>
    if other = scope then [] else disk.files other partition}

end SpillStore

inductive BucketCache where
  | memory (buckets : List (List Batch))
  | spilled (schema : Schema) (store : SpillStore) (scope : Scope) (rowCounts : List Nat)
  deriving DecidableEq, Repr

namespace BucketCache

def rowCount (batches : List RecordBatch) : Nat := (batches.map RecordBatch.numRows).sum

def bumpRowCount (rowCounts : List Nat) (partition rows : Nat) : List Nat :=
  (rowCounts ++ List.replicate (partition + 1 - rowCounts.length) 0).modify partition (· + rows)

def extendBucket (buckets : List (List Batch)) (partition : Nat) (batches : List Batch) : List (List Batch) :=
  (buckets ++ List.replicate (partition + 1 - buckets.length) []).modify partition (· ++ batches)

def fromMemory (buckets : List (List Batch)) : BucketCache := memory buckets

def records (batches : List Batch) : List RecordBatch := batches.map Batch.toRecordBatch

def writeBuckets (store : SpillStore) (scope : Scope) : Nat → List (List Batch) → Disk → Except Error Unit × Disk
  | _,[],disk => (.ok (),disk)
  | partition,bucket::rest,disk =>
    match store.writeBucket disk scope partition (records bucket) with
    | (.ok (),disk) => writeBuckets store scope (partition + 1) rest disk
    | (.error e,disk) => (.error e,disk)

def spillBuckets (store : SpillStore) (schema : Schema) (buckets : List (List Batch))
    (scope : Scope) (disk : Disk) : Except Error BucketCache × Disk :=
  match writeBuckets store scope 0 buckets disk with
  | (.ok (),disk) => (.ok (.spilled schema store scope (buckets.map (rowCount ∘ records))),disk)
  | (.error e,disk) => (.error e,disk)

def maybeSpill (spill : Option SpillStore) (schema : Schema) (buckets : List (List Batch))
    (scope : Scope) (disk : Disk) : Except Error BucketCache × Disk :=
  match spill with
  | none => (.ok (.memory buckets),disk)
  | some store =>
    if store.shouldSpill buckets then spillBuckets store schema buckets scope disk
    else (.ok (.memory buckets),disk)

def fromPartition (spill : Option SpillStore) (schema : Schema) (scope : Scope) (partition : Nat)
    (batches : List Batch) (disk : Disk) : Except Error BucketCache × Disk :=
  maybeSpill spill schema (extendBucket [] partition batches) scope disk

/-- The buckets are moved out of the cache before the first of them is written. -/
def spillOwned (store : SpillStore) (schema : Schema) (buckets : List (List Batch))
    (scope : Scope) (disk : Disk) : Except Error Unit × BucketCache × Disk :=
  match spillBuckets store schema buckets scope disk with
  | (.ok cache,disk) => (.ok (),cache,disk)
  | (.error e,disk) => (.error e,.memory [],disk)

def appendPartition (spill : Option SpillStore) (cache : BucketCache) (schema : Schema)
    (scope : Scope) (partition : Nat) (batches : List Batch) (disk : Disk) :
    Except Error Unit × BucketCache × Disk :=
  match cache with
  | .memory buckets =>
    let buckets := extendBucket buckets partition batches
    match spill with
    | none => (.ok (),.memory buckets,disk)
    | some store =>
      if store.shouldSpill buckets then spillOwned store schema buckets scope disk
      else (.ok (),.memory buckets,disk)
  | .spilled spilledSchema store spilledScope rowCounts =>
    match store.appendBatchesToBucket disk spilledScope partition (records batches) with
    | (.ok (),disk) => (.ok (),.spilled spilledSchema store spilledScope
        (bumpRowCount rowCounts partition (rowCount (records batches))),disk)
    | (.error e,disk) => (.error e,.spilled spilledSchema store spilledScope rowCounts,disk)

def appendBatch (spill : Option SpillStore) (cache : BucketCache) (schema : Schema) (scope : Scope)
    (partition : Nat) (batch : Batch) (disk : Disk) : Except Error Unit × BucketCache × Disk :=
  cache.appendPartition spill schema scope partition [batch] disk

def memoryBytes : BucketCache → Nat
  | .memory buckets => estimatedBucketBytes buckets
  | .spilled _ _ _ _ => 0

def spillNow (store : SpillStore) (cache : BucketCache) (schema : Schema) (scope : Scope)
    (disk : Disk) : Except Error Unit × BucketCache × Disk :=
  match cache with
  | .memory buckets => spillOwned store schema buckets scope disk
  | .spilled _ _ _ _ => (.ok (),cache,disk)

def orEmpty (schema : Schema) (batches : List RecordBatch) : List RecordBatch :=
  let data := batches.filter fun batch => 0 < batch.numRows
  if data.isEmpty then [newEmpty schema] else data

def readPartition (disk : Disk) (cache : BucketCache) (partition : Nat) : Except Error (List RecordBatch) :=
  match cache with
  | .memory buckets => .ok (records (buckets[partition]?.getD []))
  | .spilled schema _ scope _ => (SpillStore.readBucket disk scope partition).map (orEmpty schema)

end BucketCache

structure CachedStage where
  key : Scope
  schema : Schema
  cache : BucketCache
  deriving DecidableEq, Repr

abbrev StageCache := List CachedStage

namespace StageCache

def get (stages : StageCache) (key : Scope) : Option CachedStage :=
  stages.find? fun entry => entry.key = key

def remove (stages : StageCache) (key : Scope) : StageCache :=
  stages.filter fun entry => entry.key ≠ key

def insert (stages : StageCache) (entry : CachedStage) : StageCache :=
  stages.remove entry.key ++ [entry]

def setCache (stages : StageCache) (key : Scope) (cache : BucketCache) : StageCache :=
  stages.map fun entry => if entry.key = key then {entry with cache} else entry

def totalBytes (stages : StageCache) : Nat := (stages.map (·.cache.memoryBytes)).sum

def largest : StageCache → Option CachedStage
  | [] => none
  | entry::rest => match largest rest with
    | none => some entry
    | some other => if entry.cache.memoryBytes ≤ other.cache.memoryBytes then some other else some entry

/-- One pass of the loop for each entry, and one that finds the budget met. -/
def enforceWithin (store : SpillStore) (limit : Nat) : Nat → StageCache → Disk → Except Error Unit × StageCache × Disk
  | 0,stages,disk => (.ok (),stages,disk)
  | passes+1,stages,disk =>
    if stages.totalBytes ≤ limit then (.ok (),stages,disk)
    else match stages.largest with
      | none => (.ok (),stages,disk)
      | some victim =>
        match victim.cache.spillNow store victim.schema victim.key disk with
        | (.ok (),cache,disk) => enforceWithin store limit passes (stages.setCache victim.key cache) disk
        | (.error e,cache,disk) => (.error e,stages.setCache victim.key cache,disk)

def enforceTotalBudget (store : SpillStore) (stages : StageCache) (disk : Disk) :
    Except Error Unit × StageCache × Disk :=
  match store.totalLimitBytes with
  | none => (.ok (),stages,disk)
  | some limit => enforceWithin store limit (stages.length + 1) stages disk

end StageCache

inductive ExchangeMode where
  | hash | broadcast | forward
  deriving DecidableEq, Repr

structure StageDef where
  stageId : Nat
  sql : String := ""
  upstreamStageIds : List Nat := []
  hashKeyCols : List Nat := []
  exchange : ExchangeMode := .hash
  deriving DecidableEq, Repr

structure StageTicket where
  stageId : Nat
  partitionId : Nat
  numPartitions : Nat
  upstreamEndpoints : List String
  stageSql : String
  hashKeyCols : List Nat
  upstreamStageIds : List Nat
  produce : Bool
  coalesceReadModulus : Nat
  forwardUpstreamStageIds : List Nat
  deriving DecidableEq, Repr

def rendezvousWeight (endpoint : String) (partition : Nat) : UInt64 :=
  let mix := fun (h : UInt64) (b : UInt8) => (h ^^^ b.toUInt64) * 0x00000100000001b3
  let bytes := [partition,partition / 2^8,partition / 2^16,partition / 2^24].map Nat.toUInt8
  bytes.foldl mix (endpoint.toUTF8.toList.foldl mix 0xcbf29ce484222325)

def heaviest (partition : Nat) : List String → Option String
  | [] => none
  | endpoint::rest => match heaviest partition rest with
    | none => some endpoint
    | some other =>
      if rendezvousWeight endpoint partition ≤ rendezvousWeight other partition then some other
      else some endpoint

structure Cluster where
  workers : List String
  numPartitions : Nat
  deriving DecidableEq, Repr

def Cluster.ownerEndpoint (cluster : Cluster) (partition : Nat) : Except Error String :=
  let owner := if cluster.numPartitions = 0 then none else heaviest partition cluster.workers
  match owner with
  | some endpoint => .ok endpoint
  | none => .error (.execution s!"no owner for partition {partition}")

def coalescedReadBuckets (np m partition : Nat) : List Nat :=
  let m := max m 1
  if m ≤ partition then [] else (List.range np).filter fun bucket => bucket % m = partition

def forwardUpstreams (stage : StageDef) (stages : List StageDef) : List Nat :=
  stage.upstreamStageIds.filter fun id =>
    (stages.find? fun found => found.stageId = id).any (·.exchange = .forward)

def consumerReadModulus (stage : StageDef) (coalesced : List (Nat × Nat)) : Option Nat :=
  (stage.upstreamStageIds.filterMap fun id => (coalesced.find? fun found => found.1 = id).map (·.2)).min?

def stageTicket (stage : StageDef) (partitionId numPartitions coalesceReadModulus : Nat)
    (cluster : Cluster) (produce : Bool) (stages : List StageDef) : StageTicket where
  stageId := stage.stageId
  partitionId := partitionId
  numPartitions := numPartitions
  upstreamEndpoints := if stage.upstreamStageIds.isEmpty then [] else cluster.workers
  stageSql := stage.sql
  hashKeyCols := stage.hashKeyCols
  upstreamStageIds := stage.upstreamStageIds
  produce := produce
  coalesceReadModulus := coalesceReadModulus
  forwardUpstreamStageIds := forwardUpstreams stage stages

def StageTicket.readBuckets (ticket : StageTicket) : List Nat :=
  let modulus := if ticket.coalesceReadModulus = 0 then ticket.numPartitions
    else min ticket.coalesceReadModulus ticket.numPartitions
  coalescedReadBuckets ticket.numPartitions modulus ticket.partitionId

def StageTicket.endpointsOf (ticket : StageTicket) (upstream : Nat) : List String :=
  if upstream ∈ ticket.forwardUpstreamStageIds then ticket.upstreamEndpoints.take 1
  else ticket.upstreamEndpoints

structure Pull where
  input : Nat
  stage : Nat
  endpoint : String
  bucket : Nat
  deriving DecidableEq, Repr

def StageTicket.pulls (ticket : StageTicket) : List Pull :=
  ticket.upstreamStageIds.zipIdx.flatMap fun (stage,input) =>
    ticket.readBuckets.flatMap fun bucket =>
      (ticket.endpointsOf stage).map fun endpoint => {input,stage,endpoint,bucket}

structure StageRun where
  endpoint : String
  ticket : StageTicket
  deriving DecidableEq, Repr

/-- The stages of a query, in the order of their dependencies, and the one that answers it. -/
structure QueryPlan where
  cluster : Cluster
  stages : List StageDef
  output : StageDef

namespace QueryPlan
variable (plan : QueryPlan)

def stage (id : Nat) : Option StageDef := plan.stages.find? fun stage => stage.stageId = id

/-- A forward producer runs once, on the first worker; any other leaf once on every worker. -/
def producerTasks (stage : StageDef) : List StageRun :=
  let producers := if stage.exchange = .forward then plan.cluster.workers.take 1
    else plan.cluster.workers
  producers.zipIdx.map fun (endpoint,i) =>
    ⟨endpoint,stageTicket stage i plan.cluster.numPartitions 0 plan.cluster true plan.stages⟩

def partitionTasks (stage : StageDef) (numTasks : Nat) (produce : Bool) : Except Error (List StageRun) :=
  (List.range numTasks).mapM fun p => do
    let endpoint ← plan.cluster.ownerEndpoint p
    return ⟨endpoint,stageTicket stage p plan.cluster.numPartitions numTasks plan.cluster produce plan.stages⟩

def stageTasks (coalesced : List (Nat × Nat)) (stage : StageDef) : Except Error (List StageRun) :=
  let np := plan.cluster.numPartitions
  let readMod := (consumerReadModulus stage coalesced).getD np
  if stage.exchange = .hash && !stage.upstreamStageIds.isEmpty then
    plan.partitionTasks stage (max 1 (min readMod np)) true
  else if stage.exchange = .forward && plan.cluster.workers.isEmpty then
    .error (.execution "forward producer stage requires at least one worker")
  else .ok (plan.producerTasks stage)

def outputTasks (coalesced : List (Nat × Nat)) : Except Error (List StageRun) :=
  let np := plan.cluster.numPartitions
  if plan.output.exchange = .forward then
    match plan.cluster.workers with
    | [] => .error (.execution "forward stage requires at least one worker")
    | endpoint::_ => .ok [⟨endpoint,stageTicket plan.output 0 1 0 plan.cluster false plan.stages⟩]
  else if plan.output.upstreamStageIds.isEmpty && plan.output.hashKeyCols.isEmpty then
    .ok (plan.cluster.workers.zipIdx.map fun (endpoint,i) =>
      ⟨endpoint,stageTicket plan.output i np 0 plan.cluster false plan.stages⟩)
  else plan.partitionTasks plan.output ((consumerReadModulus plan.output coalesced).getD np) false

def tasks (coalesced : List (Nat × Nat)) (stage : StageDef) : Except Error (List StageRun) :=
  if stage.stageId = plan.output.stageId then plan.outputTasks coalesced
  else plan.stageTasks coalesced stage

end QueryPlan
end Oxidant.Shuffle
