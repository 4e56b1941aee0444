import Oxidant.Shuffle.SpillFailures

/-! When a failed spill loses nothing: exactly when the entry being spilled is the producing task's
own or has no rows, and no files of an earlier time add to what was spilled before it. -/
namespace Oxidant.Shuffle
open Streaming (Row)

def BucketCache.HarmlessSpill (disk : Disk) : BucketCache → Prop
  | memory buckets => disk.failing buckets.length = true → (memory buckets).NoRows
  | spilled _ _ _ _ => True

def BucketCache.HarmlessAppend (spill : Option SpillStore) (disk : Disk) (partition : Nat)
    (batches : List Batch) : BucketCache → Prop
  | memory buckets => ∀ store ∈ spill,
      store.shouldSpill (extendBucket buckets partition batches) = true →
      disk.failing (extendBucket buckets partition batches).length = true → (memory buckets).NoRows
  | spilled _ _ scope _ => batches ≠ [] → ∀ fault, disk.faults.head?.join = some fault →
      ∀ file, fault.left (records batches) = some file →
        file.damage ≠ none ∨ rowsOf file.batches = [] ∨ fileRows (disk.files scope partition) = none

namespace SpillTask

/-- The budget's first failing write is in the task's own entry or in one without rows, and what was
spilled before had no files of an earlier time. -/
def HarmlessBudget (task : SpillTask) (disk : Disk) (spilled : List CachedStage) (failed : CachedStage) : Prop :=
  (failed.key = task.own ∧ task.produces = true ∨ failed.cache.NoRows) ∧
    ∀ entry ∈ spilled, (entry.key ≠ task.own → entry.cache.Clean (disk.files entry.key)) ∧
      (entry.key = task.own → task.produces = false → entry.cache.CleanOrDamaged (disk.files entry.key))

def Harmless (task : SpillTask) (spill : Option SpillStore) (state : StageState) : CacheCall → Prop
  | .appendBatch partition batch => task.produces = false →
      ∀ entry ∈ state.stages.get task.own, entry.cache.HarmlessAppend spill state.disk partition [batch]
  | .appendPartition partition batches => task.produces = false →
      ∀ entry ∈ state.stages.get task.own, entry.cache.HarmlessAppend spill state.disk partition batches
  | .spillNow => task.produces = false → spill.isSome = true →
      ∀ entry ∈ state.stages.get task.own, entry.cache.HarmlessSpill state.disk
  | .enforceTotalBudget => ∀ store ∈ spill, ∀ limit ∈ store.totalLimitBytes, ∀ spilled failed,
      StageCache.firstFailing state.disk.faults (StageCache.spillPlan store limit
        (state.stages.length + 1) state.stages) = some (spilled,failed) →
      task.HarmlessBudget state.disk spilled failed

variable {task : SpillTask} {state : StageState}

lemma own_keeps_iff (found : state.stages.get task.own = some entry)
    (frame : ∀ other, other ≠ task.own → left.files other = state.disk.files other) :
    task.Keeps (state.stages.served state.disk) ((task.settle (state.stages.setCache task.own cache) left).1.served
        (task.settle (state.stages.setCache task.own cache) left).2) ↔
    (task.produces = false →
      ∀ partition, cache.served left partition = entry.cache.served state.disk partition ∨
        cache.served left partition = none) := by
  have others : ∀ key, key ≠ task.own → ∀ partition,
      (task.settle (state.stages.setCache task.own cache) left).1.served
        (task.settle (state.stages.setCache task.own cache) left).2 key partition =
        state.stages.served state.disk key partition := by
    intro key apart partition
    cases there : state.stages.get key with
    | none =>
      rw [served_settle_none apart (by rw [StageCache.get_setCache_of_ne apart,there]),StageCache.served,there]
      rfl
    | some other =>
      have under := state.under other (List.mem_of_find?_eq_some there)
      rw [StageCache.key_of_get there] at under
      rw [served_settle_of_ne apart (by rw [StageCache.get_setCache_of_ne apart,there]) under,
        StageCache.served,there]
      exact BucketCache.served_congr under (frame key apart) partition
  constructor
  · intro keeps calm partition
    have own := keeps.2 partition
    rw [settle_calm calm,StageCache.served,StageCache.get_setCache_same,found,StageCache.served,found] at own
    exact own
  · intro own
    refine ⟨others,fun partition => ?_⟩
    cases produces : task.produces with
    | true => exact .inr (served_settle_own produces)
    | false =>
      rw [settle_calm produces,StageCache.served,StageCache.get_setCache_same,found,StageCache.served,found]
      exact own produces partition

lemma memory_empty_iff :
    (∀ partition, (BucketCache.memory []).served left partition = (BucketCache.memory buckets).served disk partition ∨
      (BucketCache.memory []).served left partition = none) ↔
      (BucketCache.memory buckets).NoRows := by
  simp only [BucketCache.served_memory,BucketCache.NoRows]
  constructor
  · intro same partition
    rcases same partition with equal | absent
    · simpa [BucketCache.records,rowsOf] using equal.symm
    · cases absent
  · intro none partition
    rw [none partition]
    simp [BucketCache.records,rowsOf]

lemma appended_iff (disk : Disk) :
    (∀ bucket, fileRows ((disk.put scope partition
              (left.elim (disk.files scope partition) (Disk.segment · (disk.files scope partition)))).files
            scope bucket) = fileRows (disk.files scope bucket) ∨
        fileRows ((disk.put scope partition
              (left.elim (disk.files scope partition) (Disk.segment · (disk.files scope partition)))).files
            scope bucket) = none) ↔
    ∀ file, left = some file →
      file.damage ≠ none ∨ rowsOf file.batches = [] ∨ fileRows (disk.files scope partition) = none := by
  have others : ∀ files bucket, bucket ≠ partition →
      (disk.put scope partition files).files scope bucket = disk.files scope bucket :=
    fun files bucket apart => Disk.files_put_of_bucket_ne _ _ _ _ _ apart
  cases left with
  | none =>
    refine iff_of_true (fun bucket => .inl ?_) (by simp)
    by_cases same : bucket = partition
    · subst same
      rw [Disk.files_put_same]
      rfl
    · rw [others _ _ same]
  | some file =>
    simp only [Option.elim_some,Disk.segment,Option.some.injEq,forall_eq']
    constructor
    · intro kept
      have here := kept partition
      rw [Disk.files_put_same,BucketCache.fileRows_concat] at here
      cases damaged : file.damage with
      | some e => exact .inl (by simp)
      | none =>
        cases before : fileRows (disk.files scope partition) with
        | none => exact .inr (.inr rfl)
        | some rows =>
          rw [damaged,before] at here
          exact .inr (.inl (by simpa using here))
    · intro harmless bucket
      by_cases same : bucket = partition
      · subst same
        rw [Disk.files_put_same,BucketCache.fileRows_concat]
        rcases harmless with damaged | empty | unread
        · exact .inr (if_neg (by simpa using damaged))
        · split
          · exact .inl (by simp [empty])
          · exact .inr rfl
        · exact .inr (by simp [unread])
      · exact .inl (by rw [others _ _ same])

lemma losesNothing_of_ok (done : state.call spill task.own call = (.ok (),stages,left)) :
    task.LosesNothing spill state call := by
  intro e stages disk failed
  rw [done] at failed
  cases failed

lemma losesNothing_iff (found : state.stages.get task.own = some entry)
    (failed : state.call spill task.own call = (.error e,state.stages.setCache task.own cache,left))
    (frame : ∀ other, other ≠ task.own → left.files other = state.disk.files other) :
    task.LosesNothing spill state call ↔
    (task.produces = false →
      ∀ partition, cache.served left partition = entry.cache.served state.disk partition ∨
        cache.served left partition = none) := by
  rw [← own_keeps_iff found frame]
  constructor
  · intro loses
    exact loses e _ _ failed
  · intro keeps e stages disk again
    rw [failed] at again
    cases again
    exact keeps

lemma spillNow_iff (found : state.stages.get task.own = some entry) :
    task.LosesNothing (some store) state .spillNow ↔
      (task.produces = false → entry.cache.HarmlessSpill state.disk) := by
  have called : state.call (some store) task.own .spillNow =
      ((entry.cache.spillNow store entry.schema task.own state.disk).1, state.stages.setCache task.own
          (entry.cache.spillNow store entry.schema task.own state.disk).2.1,
        (entry.cache.spillNow store entry.schema task.own state.disk).2.2) := by
    simp only [StageState.call,StageState.onOwn,found]
  cases held : entry.cache with
  | spilled schema own scope rowCounts =>
    rw [held] at called
    exact iff_of_true (losesNothing_of_ok called) fun _ => trivial
  | memory buckets =>
    rw [held] at called
    cases fails : state.disk.failing buckets.length with
    | false =>
      obtain ⟨after,spill,_⟩ := BucketCache.spillNow_calm store entry.schema task.own fails
      rw [spill] at called
      refine iff_of_true (losesNothing_of_ok called) fun _ => ?_
      simp [BucketCache.HarmlessSpill,fails]
    | true =>
      obtain ⟨e,after,spill,frame⟩ := BucketCache.spillNow_failing store entry.schema task.own fails
      rw [spill] at called
      rw [losesNothing_iff found called frame,held,memory_empty_iff]
      simp [BucketCache.HarmlessSpill,fails]

lemma append_iff (found : state.stages.get task.own = some entry)
    (called : state.call spill task.own call =
        ((entry.cache.appendPartition spill entry.schema task.own partition batches state.disk).1,
          state.stages.setCache task.own
            (entry.cache.appendPartition spill entry.schema task.own partition batches state.disk).2.1,
          (entry.cache.appendPartition spill entry.schema task.own partition batches state.disk).2.2)) :
    task.LosesNothing spill state call ↔
    (task.produces = false → entry.cache.HarmlessAppend spill state.disk partition batches) := by
  cases held : entry.cache with
  | memory buckets =>
    rw [held] at called
    cases spill with
    | none =>
      refine iff_of_true (losesNothing_of_ok called) fun _ => ?_
      simp [BucketCache.HarmlessAppend]
    | some store =>
      cases full : store.shouldSpill (BucketCache.extendBucket buckets partition batches) with
      | false =>
        simp only [BucketCache.appendPartition,full] at called
        refine iff_of_true (losesNothing_of_ok called) fun _ => ?_
        simp [BucketCache.HarmlessAppend,full]
      | true =>
        have spills : (BucketCache.memory buckets).appendPartition (some store) entry.schema
            task.own partition batches state.disk =
            (BucketCache.memory (BucketCache.extendBucket buckets partition batches)).spillNow store
              entry.schema task.own state.disk := by
          simp [BucketCache.appendPartition,full,BucketCache.spillNow]
        rw [spills] at called
        cases fails : state.disk.failing (BucketCache.extendBucket buckets partition batches).length with
        | false =>
          obtain ⟨after,spill,_⟩ := BucketCache.spillNow_calm store entry.schema task.own fails
          rw [spill] at called
          refine iff_of_true (losesNothing_of_ok called) fun _ => ?_
          simp [BucketCache.HarmlessAppend,fails]
        | true =>
          obtain ⟨e,after,spill,frame⟩ := BucketCache.spillNow_failing store entry.schema task.own fails
          rw [spill] at called
          rw [losesNothing_iff found called frame,held,memory_empty_iff]
          simp [BucketCache.HarmlessAppend,fails,full]
  | spilled schema store scope rowCounts =>
    have own : scope = task.own := by
      have under := state.under entry (List.mem_of_find?_eq_some found)
      rw [StageCache.key_of_get found,held] at under
      exact under
    subst own
    rw [held] at called
    simp only [BucketCache.appendPartition] at called
    by_cases empty : batches = []
    · subst empty
      refine iff_of_true (losesNothing_of_ok called) fun _ => ?_
      simp [BucketCache.HarmlessAppend]
    have nonempty : BucketCache.records batches ≠ [] := by simpa [BucketCache.records] using empty
    obtain ⟨path,appended⟩ := store.appendBatchesToBucket_eq state.disk task.own partition nonempty
    rw [appended] at called
    cases fails : state.disk.faults.head?.join with
    | none =>
      rw [Disk.writeIpcFile_calm _ _ _ _ _ fails] at called
      refine iff_of_true (losesNothing_of_ok called) fun _ => ?_
      simp [BucketCache.HarmlessAppend,fails]
    | some fault =>
      rw [Disk.writeIpcFile_failing _ _ _ _ _ fails] at called
      rw [losesNothing_iff found called fun other apart => Disk.files_put_of_ne _ _ _ _ _ apart,held]
      simp only [BucketCache.served_spilled,BucketCache.HarmlessAppend]
      rw [appended_iff]
      simp [empty,fails]

lemma served_before (found : state.stages.get entry.key = some entry) (held : entry.cache = .memory buckets) :
    state.stages.served state.disk entry.key partition =
      some (rowsOf (BucketCache.records (buckets[partition]?.getD []))) := by
  rw [StageCache.served,found]
  simp only [Option.bind_some,held]
  rfl

lemma served_after (kept : key ≠ task.own ∨ task.produces = false)
    (found : after.get key = some now) (under : now.cache.Under key) :
    (task.settle after left).1.served (task.settle after left).2 key partition =
      now.cache.served left partition := by
  rcases kept with apart | calm
  · exact served_settle_of_ne apart found under
  · rw [settle_calm calm,StageCache.served,found]
    rfl

section Budget
variable (spilling : StageCache.Spilling store state.stages state.disk spilled failed after left)
include spilling

lemma served_spilled (mem : entry ∈ spilled) (held : entry.cache = .memory buckets) (partition) :
    ∃ now, after.get entry.key = some now ∧ now.cache.Under entry.key ∧
      now.cache.served left partition =
        (BucketCache.staleRows (state.disk.files entry.key) buckets partition).map
          (rowsOf (BucketCache.records (buckets[partition]?.getD [])) ++ ·) := by
  obtain ⟨found,memory,there,now,files⟩ := spilling.spilled entry mem
  rw [held] at memory
  cases memory
  refine ⟨_,now,?_,?_⟩
  · rw [held]
    exact rfl
  · simp only [held,BucketCache.onDisk]
    rw [BucketCache.served_spilled,files,BucketCache.fileRows_spilledFiles]

lemma served_others (kept : key ≠ task.own ∨ task.produces = false)
    (absent : key ∉ spilled.map (·.key)) (unfailed : key ≠ failed.key) :
    (task.settle after left).1.served (task.settle after left).2 key partition =
      state.stages.served state.disk key partition := by
  obtain ⟨same,files⟩ := spilling.others key absent unfailed
  cases there : state.stages.get key with
  | none =>
    rw [there] at same
    have absent : state.stages.served state.disk key partition = none := by
      rw [StageCache.served,there]
      rfl
    rw [absent]
    rcases kept with apart | calm
    · exact served_settle_none apart same
    · rw [settle_calm calm,StageCache.served,same]
      rfl
  | some entry =>
    have under := state.under entry (List.mem_of_find?_eq_some there)
    rw [StageCache.key_of_get there] at under
    rw [served_after kept (same.trans there) under,StageCache.served,there]
    exact BucketCache.served_congr under files partition

lemma served_spilled_iff (kept : entry.key ≠ task.own ∨ task.produces = false) (mem : entry ∈ spilled)
    (held : entry.cache = .memory buckets) (partition) :
    ((task.settle after left).1.served (task.settle after left).2 entry.key partition =
        state.stages.served state.disk entry.key partition ↔
      BucketCache.staleRows (state.disk.files entry.key) buckets partition = some []) ∧
    ((task.settle after left).1.served (task.settle after left).2 entry.key partition = none ↔
      BucketCache.staleRows (state.disk.files entry.key) buckets partition = none) := by
  obtain ⟨_,_,there,_,_⟩ := spilling.spilled entry mem
  obtain ⟨now,found,under,serves⟩ := served_spilled spilling mem held partition
  rw [served_after kept found under,serves,served_before there held]
  cases BucketCache.staleRows (state.disk.files entry.key) buckets partition with
  | none => simp
  | some rows => simp

lemma served_failed (kept : failed.key ≠ task.own ∨ task.produces = false) :
    (task.settle after left).1.served (task.settle after left).2 failed.key partition = some [] := by
  obtain ⟨_,_,_,lost⟩ := spilling.failed
  rw [served_after kept lost trivial]
  simp [BucketCache.served_memory,BucketCache.records,rowsOf]

lemma budget_keeps_iff :
    task.Keeps (state.stages.served state.disk) ((task.settle after left).1.served (task.settle after left).2) ↔
    task.HarmlessBudget state.disk spilled failed := by
  obtain ⟨lost,memory,there,_⟩ := spilling.failed
  have noRows : failed.cache.NoRows ↔ ∀ partition,
      state.stages.served state.disk failed.key partition = some [] := by
    simp only [served_before there memory,memory,BucketCache.NoRows,Option.some.injEq]
  constructor
  · rintro ⟨others,own⟩
    refine ⟨?_,fun entry mem => ⟨fun apart => ?_,fun same calm => ?_⟩⟩
    · by_cases mine : failed.key = task.own
      · cases produces : task.produces with
        | true => exact .inl ⟨mine,rfl⟩
        | false =>
          refine .inr (noRows.mpr fun partition => ?_)
          have serves := own partition
          rw [← mine,served_failed spilling (.inr produces)] at serves
          rcases serves with same | absent
          · exact same.symm
          · cases absent
      · refine .inr (noRows.mpr fun partition => ?_)
        rw [← others failed.key mine partition]
        exact served_failed spilling (.inl mine)
    · obtain ⟨buckets,held,_⟩ := spilling.spilled entry mem
      rw [held]
      intro partition
      exact (served_spilled_iff spilling (.inl apart) mem held partition).1.mp
        (others entry.key apart partition)
    · obtain ⟨buckets,held,_⟩ := spilling.spilled entry mem
      rw [held]
      intro partition
      have iff := served_spilled_iff spilling (.inr calm) mem held partition
      have serves := own partition
      rw [← same] at serves
      exact serves.imp iff.1.mp iff.2.mp
  · rintro ⟨failing,clean⟩
    have others : ∀ key, key ≠ task.own ∨ task.produces = false → key ∉ spilled.map (·.key) →
        ∀ partition, (task.settle after left).1.served (task.settle after left).2 key partition =
          state.stages.served state.disk key partition := by
      intro key kept absent partition
      by_cases same : key = failed.key
      · subst same
        have empty : failed.cache.NoRows := by
          rcases failing with ⟨mine,produces⟩ | empty
          · rcases kept with apart | calm
            · exact absurd mine apart
            · simp [produces] at calm
          · exact empty
        rw [served_failed spilling kept,noRows.mp empty partition]
      · exact served_others spilling kept absent same
    constructor
    · intro key apart partition
      by_cases among : key ∈ spilled.map (·.key)
      · obtain ⟨entry,mem,rfl⟩ := List.mem_map.mp among
        obtain ⟨buckets,held,_⟩ := spilling.spilled entry mem
        have sound := (clean entry mem).1 apart
        rw [held] at sound
        exact (served_spilled_iff spilling (.inl apart) mem held partition).1.mpr
          (sound partition)
      · exact others key (.inl apart) among partition
    · intro partition
      cases produces : task.produces with
      | true => exact .inr (served_settle_own produces)
      | false =>
        by_cases among : task.own ∈ spilled.map (·.key)
        · obtain ⟨entry,mem,same⟩ := List.mem_map.mp among
          obtain ⟨buckets,held,_⟩ := spilling.spilled entry mem
          have sound := (clean entry mem).2 same produces
          rw [held] at sound
          have iff := served_spilled_iff spilling (.inr produces) mem held partition
          rw [← same]
          exact (sound partition).imp iff.1.mpr iff.2.mpr
        · exact .inl (others task.own (.inr produces) among partition)

end Budget

lemma enforceTotalBudget_iff :
    task.LosesNothing (some store) state .enforceTotalBudget ↔
    task.Harmless (some store) state .enforceTotalBudget := by
  have called : state.call (some store) task.own .enforceTotalBudget =
      state.stages.enforceTotalBudget store state.disk := rfl
  cases limited : store.totalLimitBytes with
  | none =>
    rw [StageCache.enforceTotalBudget,limited] at called
    apply iff_of_true (losesNothing_of_ok called)
    intro same found limit bound
    cases found
    simp [limited] at bound
  | some limit =>
    rw [StageCache.enforceTotalBudget,limited] at called
    rcases StageCache.enforceWithin_spec store limit (state.stages.length + 1) state.stages
        state.disk state.distinct with ⟨calm,after,left,done⟩ | ⟨spilled,failed,e,after,left,plan,done,spilling⟩
    · apply iff_of_true (losesNothing_of_ok (called.trans done))
      intro same found bound limited' spilled failed plan
      cases found
      rw [limited] at limited'
      cases limited'
      simp [calm] at plan
    · have keeps : task.Keeps _ _ ↔ _ := budget_keeps_iff spilling
      constructor
      · intro loses same found bound limited' spilled' failed' plan'
        cases found
        rw [limited] at limited'
        cases limited'
        rw [plan] at plan'
        cases plan'
        exact keeps.mp (loses e _ _ (called.trans done))
      · intro harmless e' stages disk failed'
        rw [called.trans done] at failed'
        cases failed'
        exact keeps.mpr (harmless store rfl limit limited spilled failed plan)

/-- A call whose write fails loses nothing exactly when it is harmless. -/
theorem losesNothing_iff_harmless (task : SpillTask) (spill : Option SpillStore)
    (state : StageState) (call : CacheCall) :
    task.LosesNothing spill state call ↔ task.Harmless spill state call := by
  cases call with
  | appendBatch partition batch =>
    cases found : state.stages.get task.own with
    | none => exact iff_of_true (losesNothing_of_ok (by
        rw [StageState.call,StageState.onOwn,found])) (by simp [Harmless,found])
    | some entry =>
      rw [append_iff found (by rw [StageState.call,StageState.onOwn,found]; rfl)]
      simp [Harmless,found]
  | appendPartition partition batches =>
    cases found : state.stages.get task.own with
    | none => exact iff_of_true (losesNothing_of_ok (by
        rw [StageState.call,StageState.onOwn,found])) (by simp [Harmless,found])
    | some entry =>
      rw [append_iff found (by rw [StageState.call,StageState.onOwn,found])]
      simp [Harmless,found]
  | spillNow =>
    cases spill with
    | none => exact iff_of_true (losesNothing_of_ok rfl) (by simp [Harmless])
    | some store =>
      cases found : state.stages.get task.own with
      | none => exact iff_of_true (losesNothing_of_ok (by
          rw [StageState.call,StageState.onOwn,found])) (by simp [Harmless,found])
      | some entry =>
        rw [spillNow_iff found]
        simp [Harmless,found]
  | enforceTotalBudget =>
    cases spill with
    | none => exact iff_of_true (losesNothing_of_ok rfl) (by simp [Harmless])
    | some store => exact enforceTotalBudget_iff

namespace Sample

def batch (value : Int) (memory : Nat) : Batch where
  schema := [⟨"v",.int64⟩]
  rows := [[some (.int value)]]
  memory := memory

def committed : StageState where
  stages := [⟨⟨0,0⟩,[⟨"v",.int64⟩],.memory [[batch 7 100]]⟩,⟨⟨1,0⟩,[⟨"v",.int64⟩],.memory [[batch 8 10]]⟩]
  disk := {files := fun _ _ => [],faults := [some ⟨.create,"No space left on device"⟩]}
  distinct := by decide
  under := by simp [BucketCache.Under]

def join : SpillTask := {own := ⟨1,0⟩,produces := true}

theorem join_loses_scan : ¬join.LosesNothing (some {totalLimitBytes := some 100}) committed .enforceTotalBudget := by
  intro keeps
  have same := (keeps _ _ _ rfl).1 ⟨0,0⟩ (by decide) 0
  revert same
  decide

end Sample
end SpillTask
end Oxidant.Shuffle
