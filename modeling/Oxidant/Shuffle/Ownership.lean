import Mathlib.Logic.Function.Basic
import Oxidant.Shuffle.SpillFailures

/-! A worker and its shuffle state: the producing tasks that run on it, the entries they commit to the
stage cache and the spill directory they share. A cache holds what was appended to it, and the
files of its scope as its own, as long as no write fails. -/
namespace Oxidant.Shuffle
open Streaming (RecordBatch)

def pushSrc : Nat := 2^32 - 1

/-- A producing task that runs; what it has appended to each bucket is kept beside its cache. -/
structure StageTask where
  id : Nat
  scope : Scope
  numPartitions : Nat
  schema : Schema
  cache : BucketCache
  appended : Nat → List RecordBatch

def StageTask.fresh (id : Nat) (scope : Scope) (numPartitions : Nat) (schema : Schema) : StageTask where
  id := id
  scope := scope
  numPartitions := numPartitions
  schema := schema
  cache := .fromMemory (List.replicate numPartitions [])
  appended := fun _ => []

def appendTo (appended : Nat → List RecordBatch) (partition : Nat) (batches : List Batch) : Nat → List RecordBatch :=
  fun bucket => if bucket = partition then appended bucket ++ BucketCache.records batches
    else appended bucket

def bucketRecords (buckets : List (List Batch)) (partition : Nat) : List RecordBatch :=
  BucketCache.records (buckets[partition]?.getD [])

/-- `committed` is what the producer of the entry under a key has appended to each bucket. -/
structure Worker where
  spill : Option SpillStore
  keepSpill : Bool
  stageOutputTtl : Nat
  stageOutputs : StageCache := []
  stageInserted : List (Scope × Nat) := []
  disk : Disk := {files := fun _ _ => []}
  tasks : List StageTask := []
  committed : Scope → Nat → List RecordBatch := fun _ _ => []

inductive WorkerEvent where
  | start (id : Nat) (scope : Scope) (numPartitions : Nat) (schema : Schema)
  | flush (id partition : Nat) (batches : List Batch)
  | collect (id : Nat) (schema : Schema) (buckets : List (List Batch))
  | retry (id : Nat) (schema : Schema)
  | commit (id now : Nat)
  | fail (id : Nat)
  | push (stage partition : Nat) (schema : Schema) (batch : Batch) (now : Nat)
  | clearStages
  | rehash (stageOutputs : StageCache)

namespace Worker
variable (worker : Worker)

def task (id : Nat) : Option StageTask := worker.tasks.find? fun task => task.id = id

def insertOutput (entry : CachedStage) : Worker :=
  {worker with stageOutputs := worker.stageOutputs.insert entry}

def record (key : Scope) (appended : Nat → List RecordBatch) : Worker :=
  {worker with committed := Function.update worker.committed key appended}

def dropTask (id : Nat) : Worker :=
  {worker with tasks := worker.tasks.filter fun task => task.id ≠ id}

def setTask (task : StageTask) : Worker :=
  {worker with tasks := worker.tasks.filter (fun other => other.id ≠ task.id) ++ [task]}

def clearScopedStage (scope : Scope) : Worker :=
  match worker.spill with
  | none => worker
  | some _ => {worker with disk := SpillStore.clearScopedStage worker.disk scope}

/-- The files of every stage that has an entry go; those of other stages stay. -/
def clearStages : Worker :=
  let stages := worker.stageOutputs.map (·.key.stage)
  let disk := if worker.spill.isSome && !worker.keepSpill then stages.foldl SpillStore.clearStage worker.disk
    else worker.disk
  {worker with stageOutputs := [],stageInserted := [],disk}

def expired (now : Nat) (key : Scope) : Bool :=
  worker.stageInserted.any fun stamp => stamp.1 = key ∧ worker.stageOutputTtl ≤ now - stamp.2

/-- An expired entry leaves the cache, its files stay. -/
def noteStageOutputInsert (key : Scope) (now : Nat) : Worker :=
  let worker := {worker with
    stageInserted := worker.stageInserted.filter (fun stamp => stamp.1 ≠ key) ++ [(key,now)]}
  if worker.stageOutputTtl = 0 then worker
  else {worker with
    stageInserted := worker.stageInserted.filter fun stamp => !worker.expired now stamp.1
    stageOutputs := worker.stageOutputs.filter fun entry => !worker.expired now entry.key}

def reap (task : StageTask) : Worker :=
  let worker := (worker.dropTask task.id).clearScopedStage task.scope
  {worker with
    stageOutputs := worker.stageOutputs.remove task.scope
    stageInserted := worker.stageInserted.filter fun stamp => stamp.1 ≠ task.scope}

def enforceTotalBudget : Except Error Unit × Worker :=
  match worker.spill with
  | none => (.ok (),worker)
  | some store =>
    let (result,stageOutputs,disk) := worker.stageOutputs.enforceTotalBudget store worker.disk
    (result,{worker with stageOutputs,disk})

def flush (task : StageTask) (partition : Nat) (batches : List Batch) : Worker :=
  match task.cache.appendPartition worker.spill task.schema task.scope partition batches worker.disk with
  | (.ok (),cache,disk) => {worker with disk}.setTask
      {task with cache,appended := appendTo task.appended partition batches}
  | (.error _,cache,disk) => {worker with disk}.setTask {task with cache}

/-- The stream has failed: its partial files are cleared and `produce_stage_collect` caches all
buckets at once. -/
def collect (task : StageTask) (schema : Schema) (buckets : List (List Batch)) : Worker :=
  let worker := worker.clearScopedStage task.scope
  match BucketCache.maybeSpill worker.spill schema buckets task.scope worker.disk with
  | (.ok cache,disk) => {worker with disk}.setTask
      {task with schema,cache,appended := bucketRecords buckets}
  | (.error _,disk) => {worker with disk}.reap task

def retry (task : StageTask) (schema : Schema) : Worker :=
  (worker.clearScopedStage task.scope).setTask (.fresh task.id task.scope task.numPartitions schema)

def commit (task : StageTask) (now : Nat) : Worker :=
  match (((worker.dropTask task.id).insertOutput ⟨task.scope,task.schema,task.cache⟩).record
    task.scope task.appended).enforceTotalBudget with
  | (.ok (),worker) => worker.noteStageOutputInsert task.scope now
  | (.error _,worker) => worker.reap task

/-- The entry that a pushed batch goes to, before the budget is enforced. -/
def appendPushed (stage partition : Nat) (schema : Schema) (batch : Batch) : Except Error Unit × Worker :=
  let key : Scope := ⟨stage,pushSrc⟩
  match worker.stageOutputs.get key with
  | some entry =>
    if entry.schema ≠ schema then
      (.error (.execution s!"do_exchange schema mismatch for stage {stage} partition {partition}"), worker)
    else
      let (result,cache,disk) := entry.cache.appendBatch worker.spill entry.schema key partition batch worker.disk
      (result,{worker with stageOutputs := worker.stageOutputs.setCache key cache,disk})
  | none =>
    match BucketCache.fromPartition worker.spill schema key partition [batch] worker.disk with
    | (.ok cache,disk) => (.ok (),({worker with disk}.insertOutput ⟨key,schema,cache⟩).record key
        fun _ => [])
    | (.error e,disk) => (.error e,{worker with disk})

def cacheAppendBatch (stage partition : Nat) (schema : Schema) (batch : Batch) (now : Nat) :
    Except Error Unit × Worker :=
  let key : Scope := ⟨stage,pushSrc⟩
  match worker.appendPushed stage partition schema batch with
  | (.error e,worker) => (.error e,worker)
  | (.ok (),worker) =>
    match (worker.record key (appendTo (worker.committed key) partition [batch])).enforceTotalBudget with
    | (.error e,worker) => (.error e,worker)
    | (.ok (),worker) => (.ok (),worker.noteStageOutputInsert key now)

def rehash (stageOutputs : StageCache) : Worker :=
  if stageOutputs.Perm worker.stageOutputs then {worker with stageOutputs} else worker

def onTask (id : Nat) (change : StageTask → Worker) : Worker :=
  match worker.task id with
  | none => worker
  | some task => change task

def step (worker : Worker) : WorkerEvent → Worker
  | .start id scope numPartitions schema => match worker.task id with
    | some _ => worker
    | none => worker.setTask (.fresh id scope numPartitions schema)
  | .flush id partition batches => worker.onTask id fun task => worker.flush task partition batches
  | .collect id schema buckets => worker.onTask id fun task => worker.collect task schema buckets
  | .retry id schema => worker.onTask id fun task => worker.retry task schema
  | .commit id now => worker.onTask id fun task => worker.commit task now
  | .fail id => worker.onTask id worker.reap
  | .push stage partition schema batch now => (worker.cacheAppendBatch stage partition schema batch now).2
  | .clearStages => worker.clearStages
  | .rehash stageOutputs => worker.rehash stageOutputs

end Worker

open List

namespace BucketCache

def InMemory : BucketCache → Prop
  | memory _ => True
  | spilled _ _ _ _ => False

instance (cache : BucketCache) : Decidable cache.InMemory := by cases cache <;> unfold InMemory <;> infer_instance

/-- What was appended to each bucket is in memory, or in the files of the scope and nothing else
is. -/
def Holds (disk : Disk) (scope : Scope) (appended : Nat → List RecordBatch) : BucketCache → Prop
  | memory buckets => ∀ partition, bucketRecords buckets partition = appended partition
  | spilled _ _ kept _ => kept = scope ∧ ∀ partition,
      (disk.files scope partition).all (·.damage.isNone) = true ∧
        (disk.files scope partition).flatMap (·.batches) = appended partition

structure Owned (spill : Option SpillStore) (disk : Disk) (scope : Scope)
    (appended : Nat → List RecordBatch) (cache : BucketCache) : Prop where
  holds : cache.Holds disk scope appended
  bare : cache.InMemory → spill.isSome = true → ∀ partition, disk.files scope partition = []
  unspilled : spill = none → cache.InMemory

variable {after : Disk} {cache : BucketCache}

lemma Holds.of_memory (held : cache.InMemory) (holds : cache.Holds disk scope appended) :
    cache.Holds after scope appended := by
  cases cache with
  | memory buckets => exact holds
  | spilled => cases held

lemma Holds.congr (same : after.files scope = disk.files scope)
    (holds : cache.Holds disk scope appended) : cache.Holds after scope appended := by
  cases cache with
  | memory buckets => exact holds
  | spilled => simpa only [Holds,same] using holds

lemma Owned.congr (same : spill.isSome = true → after.files scope = disk.files scope)
    (owned : cache.Owned spill disk scope appended) : cache.Owned spill after scope appended := by
  cases spill with
  | none => exact ⟨owned.holds.of_memory (owned.unspilled rfl),by simp,owned.unspilled⟩
  | some store =>
    have same := same rfl
    refine ⟨owned.holds.congr same,fun held given partition => ?_,owned.unspilled⟩
    rw [same]
    exact owned.bare held given partition

def data (batches : List RecordBatch) : List RecordBatch :=
  batches.filter fun batch => 0 < batch.numRows

lemma data_orEmpty (schema) : data (orEmpty schema batches) = data batches := by
  simp only [orEmpty]
  split
  · next empty =>
    rw [List.isEmpty_iff] at empty
    exact empty.symm
  · simp [data]

lemma Holds.read (holds : cache.Holds disk scope appended) (partition) :
    ∃ batches, cache.readPartition disk partition = .ok batches ∧ data batches = data (appended partition) := by
  cases cache with
  | memory buckets => exact ⟨_,rfl,congrArg data (holds partition)⟩
  | spilled kept store source rowCounts =>
    obtain ⟨rfl,files⟩ := holds
    obtain ⟨whole,all⟩ := files partition
    have read := readFiles_toOption (disk.files source partition)
    rw [if_pos whole,all] at read
    cases found : Disk.readFiles (disk.files source partition) with
    | error e =>
      rw [found] at read
      cases read
    | ok batches =>
      rw [found] at read
      cases read
      refine ⟨_,?_,data_orEmpty kept⟩
      simp only [readPartition,SpillStore.readBucket,found]
      rfl

structure Touches (scope : Scope) (disk after : Disk) : Prop where
  calm : after.faults = []
  apart : ∀ other, other ≠ scope → after.files other = disk.files other

lemma Touches.trans (first : Touches scope disk middle) (second : Touches scope middle after) :
    Touches scope disk after :=
  ⟨second.calm,fun other apart => (second.apart other apart).trans (first.apart other apart)⟩

lemma spillBuckets_owned (schema) (calm : disk.faults = []) (bare : ∀ partition, disk.files scope partition = []) :
    ∃ cache after, spillBuckets store schema buckets scope disk = (.ok cache,after) ∧
      ¬cache.InMemory ∧ cache.Owned (some store) after scope (bucketRecords buckets) ∧
      Touches scope disk after := by
  obtain ⟨after,spilled,faults,apart,files⟩ := spillBuckets_calm store schema scope disk
    (by simp [Disk.failing,calm])
  have holds : ((memory buckets).onDisk store schema scope).Holds after scope (bucketRecords buckets) := by
    refine ⟨rfl,fun partition => ?_⟩
    rw [files,spilledFiles,bare]
    unfold bucketRecords
    cases found : buckets[partition]? <;> simp [records]
  exact ⟨_,after,spilled,id,⟨holds,fun held => held.elim,by simp⟩,by simp [faults,calm],apart⟩

lemma maybeSpill_owned (spill schema buckets) (calm : disk.faults = [])
    (bare : spill.isSome = true → ∀ partition, disk.files scope partition = []) :
    ∃ cache after, maybeSpill spill schema buckets scope disk = (.ok cache,after) ∧
      cache.Owned spill after scope (bucketRecords buckets) ∧ Touches scope disk after := by
  have kept : (memory buckets).Owned spill disk scope (bucketRecords buckets) :=
    ⟨fun _ => rfl,fun _ => bare,fun _ => trivial⟩
  cases spill with
  | none => exact ⟨_,disk,rfl,kept,calm,fun _ _ => rfl⟩
  | some store =>
    unfold maybeSpill
    simp only
    split
    · obtain ⟨cache,after,spilled,_,owned,touches⟩ := spillBuckets_owned schema calm (bare rfl)
      exact ⟨cache,after,spilled,owned,touches⟩
    · exact ⟨_,disk,rfl,kept,calm,fun _ _ => rfl⟩

lemma bucketRecords_extendBucket (buckets partition batches) :
    bucketRecords (extendBucket buckets partition batches) =
      appendTo (bucketRecords buckets) partition batches := by
  funext bucket
  have resized : (buckets ++ List.replicate (partition + 1 - buckets.length) [])[bucket]?.getD [] =
      buckets[bucket]?.getD [] := by
    rw [getElem?_append]
    split
    · rfl
    · next outside =>
      rw [getElem?_replicate,show buckets[bucket]? = none by simpa using outside]
      split <;> rfl
  simp only [bucketRecords,extendBucket,appendTo]
  rw [getElem?_modify]
  by_cases same : bucket = partition
  · subst same
    have reaches : bucket < (buckets ++ List.replicate (bucket + 1 - buckets.length) []).length := by
      simp only [length_append,length_replicate]
      omega
    rw [← resized,getElem?_eq_getElem reaches]
    simp [records]
  · simp only [same,Ne.symm same,if_false]
    rw [← resized]
    cases (buckets ++ List.replicate (partition + 1 - buckets.length) [])[bucket]? <;> rfl

lemma appendPartition_memory (partition)
    (spilled : maybeSpill spill schema (extendBucket buckets partition batches) scope disk = (.ok made,after)) :
    (memory buckets).appendPartition spill schema scope partition batches disk = (.ok (),made,after) := by
  unfold maybeSpill at spilled
  unfold appendPartition
  cases spill with
  | none =>
    cases spilled
    rfl
  | some store =>
    simp only at spilled ⊢
    by_cases beyond : store.shouldSpill (extendBucket buckets partition batches) = true
    · rw [if_pos beyond] at spilled ⊢
      simp only [spillOwned,spilled]
    · rw [if_neg beyond] at spilled ⊢
      cases spilled
      rfl

lemma appendPartition_owned (schema partition batches)
    (calm : disk.faults = []) (owned : cache.Owned spill disk scope appended) :
    ∃ made after, cache.appendPartition spill schema scope partition batches disk =
        (.ok (),made,after) ∧ made.Owned spill after scope (appendTo appended partition batches) ∧
      Touches scope disk after := by
  cases cache with
  | memory buckets =>
    obtain ⟨made,after,spilled,kept,touches⟩ := maybeSpill_owned spill schema
      (extendBucket buckets partition batches) calm (owned.bare trivial)
    refine ⟨made,after,appendPartition_memory partition spilled,?_,touches⟩
    rw [bucketRecords_extendBucket,show bucketRecords buckets = appended from funext owned.holds] at kept
    exact kept
  | spilled keptSchema store kept rowCounts =>
    obtain ⟨rfl,files⟩ := owned.holds
    have given : ∀ after : Disk, (∀ bucket, (after.files kept bucket).all (·.damage.isNone) = true ∧
        (after.files kept bucket).flatMap (·.batches) = appendTo appended partition batches bucket) →
        ∀ rowCounts, (spilled keptSchema store kept rowCounts).Owned spill after kept
          (appendTo appended partition batches) :=
      fun after files rowCounts => ⟨⟨rfl,files⟩,fun held => held.elim,owned.unspilled⟩
    by_cases empty : batches = []
    · subst empty
      refine ⟨_,disk,rfl,given disk (fun bucket => ?_) _,calm,fun _ _ => rfl⟩
      have same : appendTo appended partition [] bucket = appended bucket := by simp [appendTo,records]
      rw [same]
      exact files bucket
    · obtain ⟨path,appends⟩ := store.appendBatchesToBucket_eq disk kept partition
        (show records batches ≠ [] by simpa [records] using empty)
      rw [Disk.writeIpcFile_calm _ _ _ _ _ (by simp [calm])] at appends
      refine ⟨_,_,by rw [appendPartition,appends],?_,?_⟩
      · apply given
        intro bucket
        obtain ⟨whole,all⟩ := files bucket
        by_cases same : bucket = partition
        · subst same
          simp [Disk.segment,whole,all,appendTo]
        · rw [Disk.files_put_of_bucket_ne _ _ _ _ _ same]
          simp [whole,all,appendTo,same]
      · exact ⟨by simp [calm],fun other apart => Disk.files_put_of_ne _ _ _ _ _ apart⟩

lemma spillNow_owned (schema)
    (calm : disk.faults = []) (owned : (memory buckets).Owned (some store) disk scope appended) :
    ∃ cache after, (memory buckets).spillNow store schema scope disk = (.ok (),cache,after) ∧
      cache.Owned (some store) after scope appended ∧ Touches scope disk after := by
  obtain ⟨cache,after,spilled,_,kept,touches⟩ := spillBuckets_owned schema calm (owned.bare trivial rfl)
  rw [show bucketRecords buckets = appended from funext owned.holds] at kept
  exact ⟨cache,after,by simp only [spillNow,spillOwned,spilled],kept,touches⟩

end BucketCache

namespace StageCache
variable {stages : StageCache}

lemma mem_setCache (mem : entry ∈ stages.setCache key cache) :
    entry.key = key ∧ entry.cache = cache ∨ entry ∈ stages ∧ entry.key ≠ key := by
  obtain ⟨old,among,made⟩ := mem_map.mp mem
  by_cases same : old.key = key
  · rw [if_pos same] at made
    exact .inl (made ▸ ⟨same,rfl⟩)
  · rw [if_neg same] at made
    exact .inr (made ▸ ⟨among,same⟩)

lemma enforceWithin_owned (store) (limit passes : Nat) (stages disk) (served : Scope → Nat → List RecordBatch)
    (calm : disk.faults = []) (distinct : (stages.map (·.key)).Nodup)
    (owned : ∀ entry ∈ stages, entry.cache.Owned (some store) disk entry.key (served entry.key)) :
    ∃ after left, enforceWithin store limit passes stages disk = (.ok (),after,left) ∧
      after.map (·.key) = stages.map (·.key) ∧ left.faults = [] ∧
      (∀ entry ∈ after, entry.cache.Owned (some store) left entry.key (served entry.key)) ∧
      ∀ other, other ∉ stages.map (·.key) → left.files other = disk.files other := by
  induction passes generalizing stages disk with
  | zero => exact ⟨stages,disk,rfl,rfl,calm,owned,fun _ _ => rfl⟩
  | succ passes ih =>
    unfold enforceWithin
    by_cases met : stages.totalBytes ≤ limit
    · rw [if_pos met]
      exact ⟨stages,disk,rfl,rfl,calm,owned,fun _ _ => rfl⟩
    rw [if_neg met]
    cases chosen : stages.largest with
    | none => exact ⟨stages,disk,rfl,rfl,calm,owned,fun _ _ => rfl⟩
    | some victim =>
      obtain ⟨buckets,held⟩ := largest_memory met chosen
      have among := largest_mem chosen
      have mine := owned victim among
      rw [held] at mine
      obtain ⟨cache,middle,spilled,kept,touches⟩ := BucketCache.spillNow_owned victim.schema calm mine
      simp only [held,spilled]
      obtain ⟨after,left,done,keys,calm,owned,apart⟩ := ih (stages.setCache victim.key cache) middle
        touches.calm (by rw [keys_setCache]; exact distinct) (by
          intro entry mem
          rcases mem_setCache mem with ⟨same,cached⟩ | ⟨old,other⟩
          · rw [same,cached]
            exact kept
          · exact (owned entry old).congr fun _ => touches.apart entry.key other)
      rw [keys_setCache] at keys apart
      refine ⟨after,left,done,keys,calm,owned,fun other absent => ?_⟩
      rw [apart other absent]
      apply touches.apart
      rintro rfl
      exact absent (mem_map_of_mem among)

end StageCache
end Oxidant.Shuffle
