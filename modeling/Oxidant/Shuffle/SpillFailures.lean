import Mathlib.Data.List.Basic
import Oxidant.Shuffle.Spill
import Mathlib.Data.List.Nodup

/-! What the spill functions do to the files, and what a stage cache serves after a write has failed.
The buckets of an entry are moved out before they are written, so it is the entry being spilled
that loses them, whichever task the call was made for. -/
namespace Oxidant.Shuffle
open List
open Streaming (RecordBatch Row)

def rowsOf (batches : List RecordBatch) : List Row := batches.flatMap (·.rows)

@[simp] lemma rowsOf_append : rowsOf (first ++ second) = rowsOf first ++ rowsOf second := by
  simp [rowsOf]

def fileRows (files : List SpillFile) : Option (List Row) :=
  if files.all (·.damage.isNone) then some (rowsOf (files.flatMap (·.batches))) else none

namespace Disk
variable (disk : Disk) (scope other : Scope) (partition bucket : Nat) (files : List SpillFile)

@[simp] lemma files_put_same : (disk.put scope partition files).files scope partition = files := by simp [put]

lemma files_put_of_bucket_ne (apart : bucket ≠ partition) :
    (disk.put scope partition files).files scope bucket = disk.files scope bucket := by
  simp [put,apart]

lemma files_put_of_ne (apart : other ≠ scope) :
    (disk.put scope partition files).files other = disk.files other := by
  funext bucket
  simp [put,apart]

def failing (count : Nat) : Bool := (disk.faults.take count).any Option.isSome

variable {disk}

lemma writeIpcFile_calm (path place batches) (calm : disk.faults.head?.join = none) :
    disk.writeIpcFile path scope partition place batches =
      (.ok (),{disk.put scope partition (place {batches} (disk.files scope partition)) with
        faults := disk.faults.tail}) := by
  unfold writeIpcFile
  rcases planned : disk.faults with _ | ⟨_ | fault,rest⟩
  · simp [put,planned]
  · rfl
  · simp [planned] at calm

lemma writeIpcFile_failing (path place batches) (fails : disk.faults.head?.join = some fault) :
    disk.writeIpcFile path scope partition place batches =
      (.error (.io (fault.display path)),
        {disk.put scope partition
            ((fault.left batches).elim (disk.files scope partition) (place · (disk.files scope partition))) with
            faults := disk.faults.tail}) := by
  unfold writeIpcFile
  rcases planned : disk.faults with _ | ⟨_ | found,rest⟩ <;> simp [planned] at fails
  subst fails
  rfl

end Disk

lemma SpillStore.appendBatchesToBucket_eq (store : SpillStore) (disk scope partition) (nonempty : batches ≠ []) :
    ∃ path, store.appendBatchesToBucket disk scope partition batches =
      disk.writeIpcFile path scope partition Disk.segment batches := by
  have filled : batches.isEmpty = false := by simpa using nonempty
  unfold appendBatchesToBucket
  rw [filled]
  cases held : disk.files scope partition with
  | nil =>
    refine ⟨store.path scope partition,?_⟩
    simp [writeBucket,Disk.writeIpcFile,held,Disk.base,Disk.segment]
  | cons first rest => exact ⟨_,rfl⟩

namespace BucketCache
variable (store : SpillStore) (scope : Scope)

lemma writeBuckets_calm (start disk) (calm : disk.failing buckets.length = false) :
    ∃ after, writeBuckets store scope start buckets disk = (.ok (),after) ∧
      after.faults = disk.faults.drop buckets.length ∧
      (∀ other, other ≠ scope → after.files other = disk.files other) ∧
      (∀ p bucket, buckets[p]? = some bucket → after.files scope (start + p) =
          {batches := records bucket}::(disk.files scope (start + p)).tail) ∧
      (∀ p, p < start ∨ start + buckets.length ≤ p → after.files scope p = disk.files scope p) := by
  induction buckets generalizing start disk with
  | nil => exact ⟨disk,rfl,rfl,fun _ _ => rfl,by simp,fun _ _ => rfl⟩
  | cons bucket rest ih =>
    have first : disk.faults.head?.join = none := by
      rcases planned : disk.faults with _ | ⟨_ | fault,later⟩ <;>
        simp [Disk.failing,planned] at calm ⊢
    have written := Disk.writeIpcFile_calm scope start (store.path scope start) Disk.base (records bucket) first
    obtain ⟨after,spilled,faults,apart,made,kept⟩ := ih (start + 1) {disk.put scope start
      (Disk.base {batches := records bucket} (disk.files scope start)) with
        faults := disk.faults.tail} (by
          rcases planned : disk.faults with _ | ⟨_ | fault,later⟩ <;>
            simp [Disk.failing,planned] at calm ⊢
          exact calm)
    refine ⟨after,?_,?_,?_,?_,?_⟩
    · simp only [writeBuckets,SpillStore.writeBucket,written,spilled]
    · simp [faults]
    · intro other ne
      rw [apart other ne]
      exact Disk.files_put_of_ne _ _ _ _ _ ne
    · intro p found at_
      cases p with
      | zero =>
        cases at_
        rw [Nat.add_zero,kept start (.inl (Nat.lt_succ_self _))]
        exact Disk.files_put_same _ _ _ _
      | succ p =>
        have step : start + (p + 1) = start + 1 + p := by omega
        rw [step,made p found at_]
        exact congrArg (fun files => _::List.tail files) (Disk.files_put_of_bucket_ne _ _ _ _ _ (by omega))
    · intro p outside
      rw [kept p (by rw [length_cons] at outside; omega)]
      exact Disk.files_put_of_bucket_ne _ _ _ _ _ (by rw [length_cons] at outside; omega)

lemma writeBuckets_failing (start disk) (fails : disk.failing buckets.length = true) :
    ∃ e after, writeBuckets store scope start buckets disk = (.error e,after) ∧
      ∀ other, other ≠ scope → after.files other = disk.files other := by
  induction buckets generalizing start disk with
  | nil => simp [Disk.failing] at fails
  | cons bucket rest ih =>
    cases first : disk.faults.head?.join with
    | some fault =>
      have written := Disk.writeIpcFile_failing scope start (store.path scope start) Disk.base (records bucket) first
      refine ⟨_,_,by rw [writeBuckets,SpillStore.writeBucket,written],fun other apart => ?_⟩
      exact Disk.files_put_of_ne _ _ _ _ _ apart
    | none =>
      have written := Disk.writeIpcFile_calm scope start (store.path scope start) Disk.base (records bucket) first
      obtain ⟨e,after,spilled,apart⟩ := ih (start + 1) {disk.put scope start
        (Disk.base {batches := records bucket} (disk.files scope start)) with
          faults := disk.faults.tail} (by
            rcases planned : disk.faults with _ | ⟨_ | fault,later⟩ <;>
              simp [Disk.failing,planned] at fails first ⊢
            exact fails)
      refine ⟨e,after,by simp only [writeBuckets,SpillStore.writeBucket,written,spilled],?_⟩
      intro other ne
      rw [apart other ne]
      exact Disk.files_put_of_ne _ _ _ _ _ ne

end BucketCache

lemma readFiles_toOption (files) :
    (Disk.readFiles files).toOption =
      if files.all (·.damage.isNone) then some (files.flatMap (·.batches)) else none := by
  induction files with
  | nil => rfl
  | cons file rest ih =>
    unfold Disk.readFiles Disk.readIpcFile
    cases damaged : file.damage with
    | some e => simp [damaged,bind,Except.bind,Except.toOption]
    | none =>
      cases later : Disk.readFiles rest with
      | error e => simpa [later,damaged,bind,Except.bind,Except.toOption] using ih
      | ok batches => simpa [later,damaged,bind,Except.bind,Except.toOption,pure,Except.pure] using ih

namespace BucketCache

def served (disk : Disk) (cache : BucketCache) (partition : Nat) : Option (List Row) :=
  (cache.readPartition disk partition).toOption.map rowsOf

lemma rowsOf_filter (batches) : rowsOf (batches.filter fun batch => 0 < batch.numRows) = rowsOf batches := by
  induction batches with
  | nil => rfl
  | cons batch rest ih =>
    by_cases empty : 0 < batch.numRows
    · rw [filter_cons_of_pos (by simpa using empty)]
      exact congrArg (batch.rows ++ ·) ih
    · have none : batch.rows = [] := by simpa [RecordBatch.numRows] using empty
      rw [filter_cons_of_neg (by simpa using empty),ih]
      simp [rowsOf,none]

lemma rowsOf_orEmpty : rowsOf (orEmpty schema batches) = rowsOf batches := by
  rw [← rowsOf_filter batches]
  unfold orEmpty
  cases batches.filter fun batch => 0 < batch.numRows with
  | nil => rfl
  | cons batch rest => rfl

lemma served_memory (disk buckets partition) :
    (memory buckets).served disk partition = some (rowsOf (records (buckets[partition]?.getD []))) := rfl

lemma served_spilled (disk schema store scope rowCounts partition) :
    (spilled schema store scope rowCounts).served disk partition = fileRows (disk.files scope partition) := by
  have read := readFiles_toOption (disk.files scope partition)
  unfold served fileRows
  change ((Disk.readFiles (disk.files scope partition)).map (orEmpty schema)).toOption.map rowsOf = _
  cases found : Disk.readFiles (disk.files scope partition) with
  | error e =>
    rw [found] at read
    split at read
    · cases read
    · next damaged => rw [if_neg damaged]; rfl
  | ok batches =>
    rw [found] at read
    split at read
    · next whole =>
      cases read
      rw [if_pos whole]
      exact congrArg some (rowsOf_orEmpty)
    · cases read

end BucketCache

namespace BucketCache

def Under (key : Scope) : BucketCache → Prop
  | memory _ => True
  | spilled _ _ scope _ => scope = key

def writes : BucketCache → Nat
  | memory buckets => buckets.length
  | spilled _ _ _ _ => 0

def onDisk (store : SpillStore) (schema : Schema) (scope : Scope) : BucketCache → BucketCache
  | memory buckets => spilled schema store scope (buckets.map (rowCount ∘ records))
  | cache => cache

/-- The files of a scope after a spill: every bucket's base file is new, segments stay. -/
def spilledFiles (old : Nat → List SpillFile) (buckets : List (List Batch)) (partition : Nat) : List SpillFile :=
  match buckets[partition]? with
  | some bucket => {batches := records bucket}::(old partition).tail
  | none => old partition

def staleRows (old : Nat → List SpillFile) (buckets : List (List Batch)) (partition : Nat) : Option (List Row) :=
  fileRows (if partition < buckets.length then (old partition).tail else old partition)

lemma fileRows_cons : fileRows ({batches}::files) = (fileRows files).map (rowsOf batches ++ ·) := by
  unfold fileRows
  by_cases whole : files.all (·.damage.isNone) <;> simp [whole]

lemma fileRows_concat (files) (file : SpillFile) :
    fileRows (files ++ [file]) =
      if file.damage.isNone then (fileRows files).map (· ++ rowsOf file.batches) else none := by
  unfold fileRows
  by_cases whole : files.all (·.damage.isNone) <;> by_cases sound : file.damage.isNone <;>
    simp [whole,sound]

lemma fileRows_spilledFiles (old buckets partition) :
    fileRows (spilledFiles old buckets partition) =
      (staleRows old buckets partition).map (rowsOf (records (buckets[partition]?.getD [])) ++ ·) := by
  unfold spilledFiles staleRows
  by_cases inside : partition < buckets.length
  · rw [getElem?_eq_getElem inside,if_pos inside]
    exact fileRows_cons
  · rw [getElem?_eq_none (by omega),if_neg inside]
    simp [records,rowsOf]

lemma spillBuckets_calm (store schema scope disk) (calm : disk.failing buckets.length = false) :
    ∃ after, spillBuckets store schema buckets scope disk =
        (.ok ((memory buckets).onDisk store schema scope),after) ∧
      after.faults = disk.faults.drop buckets.length ∧
      (∀ other, other ≠ scope → after.files other = disk.files other) ∧
      after.files scope = spilledFiles (disk.files scope) buckets := by
  obtain ⟨after,written,faults,apart,made,kept⟩ := writeBuckets_calm store scope 0 disk calm
  refine ⟨after,?_,faults,apart,?_⟩
  · simp only [spillBuckets,written]
    rfl
  · funext partition
    unfold spilledFiles
    cases found : buckets[partition]? with
    | some bucket => simpa using made partition bucket found
    | none =>
      apply kept
      have outside := getElem?_eq_none_iff.mp found
      omega

lemma spillNow_calm (store schema scope ) (calm : disk.failing buckets.length = false) :
    ∃ after, (memory buckets).spillNow store schema scope disk =
        (.ok (),(memory buckets).onDisk store schema scope,after) ∧
      after.faults = disk.faults.drop buckets.length ∧
      (∀ other, other ≠ scope → after.files other = disk.files other) ∧
      after.files scope = spilledFiles (disk.files scope) buckets := by
  obtain ⟨after,spill,rest⟩ := spillBuckets_calm store schema scope disk calm
  exact ⟨after,by simp only [spillNow,spillOwned,spill],rest⟩

lemma spillNow_failing (store schema scope ) (fails : disk.failing buckets.length = true) :
    ∃ e after, (memory buckets).spillNow store schema scope disk = (.error e,memory [],after) ∧
      ∀ other, other ≠ scope → after.files other = disk.files other := by
  obtain ⟨e,after,written,apart⟩ := writeBuckets_failing store scope 0 disk fails
  refine ⟨e,after,?_,apart⟩
  simp only [spillNow,spillOwned,spillBuckets,written]

end BucketCache

namespace StageCache
variable {stages : StageCache}

lemma key_of_get (found : stages.get key = some entry) : entry.key = key := by simpa using find?_some found

lemma get_setCache_same : (stages.setCache key cache).get key = (stages.get key).map ({· with cache := cache}) := by
  unfold setCache get
  induction stages with
  | nil => rfl
  | cons first rest ih =>
    by_cases same : first.key = key
    · simp [same]
    · simpa [same] using ih

lemma get_setCache_of_ne (apart : other ≠ key) : (stages.setCache key cache).get other = stages.get other := by
  unfold setCache get
  induction stages with
  | nil => rfl
  | cons first rest ih =>
    by_cases same : first.key = key
    · simpa [same,apart.symm] using ih
    · by_cases here : first.key = other
      · subst here
        simp [same]
      · simpa [same,here] using ih

lemma get_remove_same : (stages.remove key).get key = none := by simp [remove,get]

lemma get_remove_of_ne (apart : other ≠ key) : (stages.remove key).get other = stages.get other := by
  unfold remove get
  rw [find?_filter]
  congr 1
  funext entry
  by_cases same : entry.key = other
  · simp [same,apart]
  · simp [same]

lemma get_of_mem (distinct : (stages.map (·.key)).Nodup) (mem : entry ∈ stages) :
    stages.get entry.key = some entry := by
  cases found : stages.get entry.key with
  | none =>
    have apart := find?_eq_none.mp found entry mem
    simp at apart
  | some other =>
    have same := inj_on_of_nodup_map distinct (mem_of_find?_eq_some found) mem (key_of_get found)
    rw [same]

lemma keys_setCache : (stages.setCache key cache).map (·.key) = stages.map (·.key) := by
  unfold setCache
  rw [map_map]
  apply map_congr_left
  intro entry _
  simp only [Function.comp_apply]
  split <;> rfl

lemma largest_mem (found : stages.largest = some entry) : entry ∈ stages := by
  induction stages generalizing entry with
  | nil => cases found
  | cons first rest ih =>
    unfold largest at found
    cases later : largest rest with
    | none =>
      rw [later] at found
      cases found
      exact mem_cons_self
    | some other =>
      rw [later] at found
      simp only at found
      split at found <;> cases found
      · exact mem_cons_of_mem _ (ih later)
      · exact mem_cons_self

lemma largest_none (found : stages.largest = none) : stages = [] := by
  cases stages with
  | nil => rfl
  | cons first rest =>
    unfold largest at found
    cases later : largest rest <;> rw [later] at found <;> simp only at found
    · cases found
    · split at found <;> cases found

lemma totalBytes_zero (found : stages.largest = some entry) (none : entry.cache.memoryBytes = 0) :
    stages.totalBytes = 0 := by
  induction stages generalizing entry with
  | nil => rfl
  | cons first rest ih =>
    unfold largest at found
    cases later : largest rest with
    | none =>
      rw [later] at found
      cases found
      simp [totalBytes,largest_none later,none]
    | some other =>
      rw [later] at found
      simp only at found
      split at found <;> cases found
      · next below =>
        have zero := ih later none
        simp only [totalBytes,map_cons,sum_cons] at zero ⊢
        omega
      · next above => omega

lemma largest_memory (beyond : ¬stages.totalBytes ≤ limit) (found : stages.largest = some entry) :
    ∃ buckets, entry.cache = .memory buckets := by
  cases held : entry.cache with
  | memory buckets => exact ⟨buckets,rfl⟩
  | spilled schema store scope rowCounts =>
    have zero := totalBytes_zero found (by rw [held]; rfl)
    omega

def spillPlan (store : SpillStore) (limit : Nat) : Nat → StageCache → List CachedStage
  | 0,_ => []
  | passes+1,stages =>
    if stages.totalBytes ≤ limit then []
    else match stages.largest with
      | none => []
      | some victim => victim::spillPlan store limit passes
          (stages.setCache victim.key (victim.cache.onDisk store victim.schema victim.key))

/-- The entry whose spill meets the first write that fails, and the entries spilled before. -/
def firstFailing : List (Option Fault) → List CachedStage → Option (List CachedStage × CachedStage)
  | _,[] => none
  | faults,victim::rest =>
    if (faults.take victim.cache.writes).any Option.isSome then some ([],victim)
    else (firstFailing (faults.drop victim.cache.writes) rest).map fun (spilled,failed) => (victim::spilled,failed)

structure Spilling (store : SpillStore) (stages : StageCache) (disk : Disk)
    (spilled : List CachedStage) (failed : CachedStage) (after : StageCache) (left : Disk) : Prop where
  others : ∀ key, key ∉ spilled.map (·.key) → key ≠ failed.key →
    after.get key = stages.get key ∧ left.files key = disk.files key
  spilled : ∀ entry ∈ spilled, ∃ buckets, entry.cache = .memory buckets ∧
    stages.get entry.key = some entry ∧
    after.get entry.key = some {entry with
      cache := entry.cache.onDisk store entry.schema entry.key} ∧
    left.files entry.key = BucketCache.spilledFiles (disk.files entry.key) buckets
  failed : ∃ buckets, failed.cache = .memory buckets ∧ stages.get failed.key = some failed ∧
    after.get failed.key = some {failed with cache := .memory []}

lemma Spilling.head {after : StageCache} {spilled : List CachedStage} {failed victim : CachedStage}
    (held : victim.cache = .memory buckets) (found : stages.get victim.key = some victim)
    (files : middle.files victim.key = BucketCache.spilledFiles (disk.files victim.key) buckets)
    (apart : ∀ other, other ≠ victim.key → middle.files other = disk.files other)
    (rest : Spilling store (stages.setCache victim.key (victim.cache.onDisk store victim.schema victim.key)) middle
        spilled failed after left) :
    Spilling store stages disk (victim::spilled) failed after left := by
  have onDisk : (stages.setCache victim.key (victim.cache.onDisk store victim.schema victim.key)).get victim.key =
      some {victim with cache := victim.cache.onDisk store victim.schema victim.key} := by
    rw [get_setCache_same,found]
    rfl
  -- an entry that is still in memory after the first spill is another one
  have ne : ∀ entry : CachedStage, (stages.setCache victim.key
      (victim.cache.onDisk store victim.schema victim.key)).get entry.key = some entry →
      ∀ kept, entry.cache = .memory kept → entry.key ≠ victim.key := by
    intro entry there kept memory same
    rw [same,onDisk] at there
    cases there
    simp [held,BucketCache.onDisk] at memory
  obtain ⟨kept,memory,there,lost⟩ := rest.failed
  have failedApart := ne failed there kept memory
  rw [get_setCache_of_ne failedApart] at there
  have spilledApart : victim.key ∉ spilled.map (·.key) := by
    intro mem
    obtain ⟨entry,among,same⟩ := mem_map.mp mem
    obtain ⟨kept,memory,there,_,_⟩ := rest.spilled entry among
    exact ne entry there kept memory same
  refine ⟨?_,?_,kept,memory,there,lost⟩
  · intro key absent unfailed
    rw [map_cons,mem_cons,not_or] at absent
    obtain ⟨same,kept⟩ := rest.others key absent.2 unfailed
    rw [same,kept,get_setCache_of_ne absent.1,apart key absent.1]
    exact ⟨rfl,rfl⟩
  · intro entry mem
    rcases mem_cons.mp mem with rfl | among
    · obtain ⟨same,kept⟩ := rest.others entry.key spilledApart failedApart.symm
      exact ⟨buckets,held,found,same.trans onDisk,kept.trans files⟩
    · obtain ⟨kept,memory,there,same,made⟩ := rest.spilled entry among
      have other := ne entry there kept memory
      rw [get_setCache_of_ne other] at there
      rw [apart entry.key other] at made
      exact ⟨kept,memory,there,same,made⟩

lemma enforceWithin_spec (store limit passes stages disk) (distinct : (stages.map (·.key)).Nodup) :
    (firstFailing disk.faults (spillPlan store limit passes stages) = none ∧
      ∃ after left, enforceWithin store limit passes stages disk = (.ok (),after,left)) ∨
    ∃ spilled failed e after left,
      firstFailing disk.faults (spillPlan store limit passes stages) = some (spilled,failed) ∧
      enforceWithin store limit passes stages disk = (.error e,after,left) ∧
      Spilling store stages disk spilled failed after left := by
  induction passes generalizing stages disk with
  | zero => exact .inl ⟨rfl,_,_,rfl⟩
  | succ passes ih =>
    unfold enforceWithin spillPlan
    by_cases met : stages.totalBytes ≤ limit
    · rw [if_pos met,if_pos met]
      exact .inl ⟨rfl,_,_,rfl⟩
    rw [if_neg met,if_neg met]
    cases chosen : stages.largest with
    | none => exact .inl ⟨rfl,_,_,rfl⟩
    | some victim =>
      obtain ⟨buckets,held⟩ := largest_memory met chosen
      have found := get_of_mem distinct (largest_mem chosen)
      have writes : victim.cache.writes = buckets.length := by rw [held]; rfl
      simp only [firstFailing,writes]
      by_cases fails : (disk.faults.take buckets.length).any Option.isSome = true
      · obtain ⟨e,left,spill,apart⟩ := BucketCache.spillNow_failing store victim.schema victim.key fails
        refine .inr ⟨[],victim,e,stages.setCache victim.key (.memory []),left,if_pos fails,?_,?_⟩
        · rw [held,spill]
        · refine ⟨fun key _ unfailed => ?_,by simp,buckets,held,found,?_⟩
          · exact ⟨get_setCache_of_ne unfailed,apart key unfailed⟩
          · rw [get_setCache_same,found]
            rfl
      · obtain ⟨middle,spill,faults,apart,files⟩ := BucketCache.spillNow_calm store victim.schema
          victim.key (by simpa [Disk.failing] using fails)
        have next := ih (stages.setCache victim.key
          (victim.cache.onDisk store victim.schema victim.key)) middle (by rw [keys_setCache]; exact distinct)
        rw [faults] at next
        rw [held,spill,if_neg fails]
        rw [held] at next
        rcases next with ⟨none,after,left,done⟩ | ⟨spilled,failed,e,after,left,plan,done,rest⟩
        · exact .inl ⟨by rw [none]; rfl,after,left,done⟩
        · refine .inr ⟨victim::spilled,failed,e,after,left,by rw [plan]; rfl,done,?_⟩
          rw [← held] at rest
          exact rest.head held found files apart

/-- The rows an entry serves of a bucket; `none` is a missing entry or a bucket that fails to read.
-/
def served (stages : StageCache) (disk : Disk) (key : Scope) (partition : Nat) : Option (List Row) :=
  (stages.get key).bind fun entry => entry.cache.served disk partition

end StageCache

structure StageState where
  stages : StageCache
  disk : Disk
  distinct : (stages.map (·.key)).Nodup
  under : ∀ entry ∈ stages, entry.cache.Under entry.key

/-- The task a call is made for. A failed producing task's scope is reaped; what `do_exchange`
pushes is not. -/
structure SpillTask where
  own : Scope
  produces : Bool

inductive CacheCall where
  | appendBatch (partition : Nat) (batch : Batch)
  | appendPartition (partition : Nat) (batches : List Batch)
  | spillNow
  | enforceTotalBudget

def StageState.onOwn (state : StageState) (own : Scope)
    (change : CachedStage → Except Error Unit × BucketCache × Disk) : Except Error Unit × StageCache × Disk :=
  match state.stages.get own with
  | none => (.ok (),state.stages,state.disk)
  | some entry =>
    let (result,cache,disk) := change entry
    (result,state.stages.setCache own cache,disk)

def StageState.call (spill : Option SpillStore) (own : Scope) (state : StageState) :
    CacheCall → Except Error Unit × StageCache × Disk
  | .appendBatch partition batch => state.onOwn own fun entry =>
      entry.cache.appendBatch spill entry.schema own partition batch state.disk
  | .appendPartition partition batches => state.onOwn own fun entry =>
      entry.cache.appendPartition spill entry.schema own partition batches state.disk
  | .spillNow => match spill with
    | none => (.ok (),state.stages,state.disk)
    | some store => state.onOwn own fun entry => entry.cache.spillNow store entry.schema own state.disk
  | .enforceTotalBudget => match spill with
    | none => (.ok (),state.stages,state.disk)
    | some store => state.stages.enforceTotalBudget store state.disk

namespace SpillTask

def settle (task : SpillTask) (stages : StageCache) (disk : Disk) : StageCache × Disk :=
  if task.produces then (stages.remove task.own,SpillStore.clearScopedStage disk task.own)
  else (stages,disk)

/-- Every other entry serves what it served; the task's own does too, or is not served. -/
def Keeps (task : SpillTask) (before after : Scope → Nat → Option (List Row)) : Prop :=
  (∀ key, key ≠ task.own → ∀ partition, after key partition = before key partition) ∧
    ∀ partition, after task.own partition = before task.own partition ∨ after task.own partition = none

def LosesNothing (task : SpillTask) (spill : Option SpillStore) (state : StageState) (call : CacheCall) : Prop :=
  ∀ e stages disk, state.call spill task.own call = (.error e,stages,disk) →
    task.Keeps (state.stages.served state.disk) ((task.settle stages disk).1.served (task.settle stages disk).2)

end SpillTask

namespace BucketCache

def NoRows : BucketCache → Prop
  | memory buckets => ∀ partition : Nat, rowsOf (records (buckets[partition]?.getD [])) = []
  | spilled _ _ _ _ => True

def Clean (old : Nat → List SpillFile) : BucketCache → Prop
  | memory buckets => ∀ partition, staleRows old buckets partition = some []
  | spilled _ _ _ _ => True

def CleanOrDamaged (old : Nat → List SpillFile) : BucketCache → Prop
  | memory buckets => ∀ partition, staleRows old buckets partition = some [] ∨
      staleRows old buckets partition = none
  | spilled _ _ _ _ => True

lemma served_congr {cache : BucketCache}
    (under : cache.Under key) (same : left.files key = disk.files key) (partition) :
    cache.served left partition = cache.served disk partition := by
  cases cache with
  | memory buckets => rfl
  | spilled schema store scope rowCounts =>
    cases under
    rw [served_spilled,served_spilled,same]

end BucketCache

namespace SpillTask
variable {task : SpillTask} {partition : Nat}

lemma served_settle_own (produces : task.produces = true) :
    (task.settle stages disk).1.served (task.settle stages disk).2 task.own partition = none := by
  simp [settle,produces,StageCache.served,StageCache.get_remove_same]

lemma settle_calm (calm : task.produces = false) : task.settle stages disk = (stages,disk) := by
  simp [settle,calm]

lemma served_settle_of_ne (apart : key ≠ task.own)
    (found : stages.get key = some entry) (under : entry.cache.Under key) :
    (task.settle stages disk).1.served (task.settle stages disk).2 key partition =
      entry.cache.served disk partition := by
  unfold settle
  split
  · rw [StageCache.served,StageCache.get_remove_of_ne apart,found]
    refine BucketCache.served_congr under ?_ partition
    funext bucket
    simp [SpillStore.clearScopedStage,apart]
  · rw [StageCache.served,found]
    rfl

lemma served_settle_none (apart : key ≠ task.own) (absent : stages.get key = none) :
    (task.settle stages disk).1.served (task.settle stages disk).2 key partition = none := by
  unfold settle
  split
  · simp [StageCache.served,StageCache.get_remove_of_ne apart,absent]
  · simp [StageCache.served,absent]

end SpillTask
end Oxidant.Shuffle
