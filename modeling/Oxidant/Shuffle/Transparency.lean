import Oxidant.Lib.Steps
import Oxidant.Shuffle.Ownership

/-! Spilling is transparent on a worker where a producer starts in a scope without files, without
another producer and without a spilled entry, and where neither the budget nor `clear_stages`
reaches into the scope of a running producer. -/
namespace Oxidant.Shuffle
open Lib List
open Streaming (RecordBatch)
open BucketCache (Touches)

namespace Worker

/-- Every committed entry serves, without the empty batches, what was appended to it. -/
def Transparent (worker : Worker) : Prop :=
  ∀ entry ∈ worker.stageOutputs, ∀ partition, ∃ batches,
    entry.cache.readPartition worker.disk partition = .ok batches ∧
      BucketCache.data batches = BucketCache.data (worker.committed entry.key partition)

def Vacant (worker : Worker) (scope : Scope) : Prop :=
  (∀ partition, worker.disk.files scope partition = []) ∧ (∀ task ∈ worker.tasks, task.scope ≠ scope) ∧
    ∀ entry ∈ worker.stageOutputs, entry.key = scope → entry.cache.InMemory

def Apart (worker : Worker) (id : Option Nat) : Prop :=
  (worker.spill.bind (·.totalLimitBytes)).isSome = true → ∀ task ∈ worker.tasks, some task.id ≠ id →
    ∀ entry ∈ worker.stageOutputs, task.scope ≠ entry.key

def Orderly (worker : Worker) : WorkerEvent → Prop
  | .start _ scope _ _ => worker.spill.isSome = true → worker.Vacant scope
  | .commit id _ => worker.Apart (some id)
  | .push stage _ _ _ _ => worker.Apart none ∧ (worker.spill.isSome = true →
      (∀ task ∈ worker.tasks, task.scope ≠ ⟨stage,pushSrc⟩) ∧
      (worker.stageOutputs.get ⟨stage,pushSrc⟩ = none →
        ∀ partition, worker.disk.files ⟨stage,pushSrc⟩ partition = []))
  | .clearStages => worker.spill.isSome = true → worker.keepSpill = false →
      ∀ task ∈ worker.tasks, ¬task.cache.InMemory → ∀ entry ∈ worker.stageOutputs, entry.key.stage ≠ task.scope.stage
  | _ => True

/-- Who owns the files of a scope: the producer that works in it or, without one, the entry. -/
structure Owning (worker : Worker) : Prop where
  calm : worker.disk.faults = []
  distinct : (worker.stageOutputs.map (·.key)).Nodup
  producers : ∀ task ∈ worker.tasks,
    task.cache.Owned worker.spill worker.disk task.scope task.appended
  holds : ∀ entry ∈ worker.stageOutputs,
    entry.cache.Holds worker.disk entry.key (worker.committed entry.key)
  unspilled : worker.spill = none → ∀ entry ∈ worker.stageOutputs, entry.cache.InMemory
  bare : worker.spill.isSome = true → ∀ entry ∈ worker.stageOutputs, entry.cache.InMemory →
    (∀ task ∈ worker.tasks, task.scope ≠ entry.key) →
      ∀ partition, worker.disk.files entry.key partition = []
  alone : worker.spill.isSome = true → ∀ first ∈ worker.tasks, ∀ second ∈ worker.tasks,
    first.scope = second.scope ↔ first.id = second.id
  shared : worker.spill.isSome = true → ∀ task ∈ worker.tasks, ∀ entry ∈ worker.stageOutputs,
    entry.key = task.scope → entry.cache.InMemory

variable {worker : Worker} {task made : StageTask} {id : Nat} {after : Disk}

lemma Owning.transparent (owning : worker.Owning) : worker.Transparent :=
  fun entry mem partition => (owning.holds entry mem).read partition

lemma task_mem (found : worker.task id = some task) : task ∈ worker.tasks ∧ task.id = id :=
  ⟨mem_of_find?_eq_some found,by simpa using find?_some found⟩

lemma Owning.entry (owning : worker.Owning) {entry : CachedStage} (mem : entry ∈ worker.stageOutputs)
    (free : worker.spill.isSome = true → ∀ task ∈ worker.tasks, task.scope ≠ entry.key) :
    entry.cache.Owned worker.spill worker.disk entry.key (worker.committed entry.key) :=
  ⟨owning.holds entry mem,fun held given => owning.bare given entry mem held (free given),
    fun none => owning.unspilled none entry mem⟩

lemma Owning.frame (owning : worker.Owning) {entry : CachedStage}
    (mem : entry ∈ worker.stageOutputs) (touches : Touches scope worker.disk after)
    (held : worker.spill.isSome = true → entry.key = scope → entry.cache.InMemory) :
    entry.cache.Holds after entry.key (worker.committed entry.key) := by
  have holds := owning.holds entry mem
  cases given : worker.spill with
  | none => exact holds.of_memory (owning.unspilled given entry mem)
  | some store =>
    by_cases same : entry.key = scope
    · exact holds.of_memory (held (by rw [given]; rfl) same)
    · exact holds.congr (touches.apart entry.key same)

lemma Owning.producer (owning : worker.Owning) (mem : task ∈ worker.tasks)
    (touches : Touches scope worker.disk after)
    (other : worker.spill.isSome = true → task.scope ≠ scope) :
    task.cache.Owned worker.spill after task.scope task.appended :=
  (owning.producers task mem).congr fun given => touches.apart task.scope (other given)

lemma mem_others (mem : other ∈ worker.tasks.filter fun other => other.id ≠ id) :
    other ∈ worker.tasks ∧ other.id ≠ id := by
  simpa using mem_filter.mp mem

section
variable (owning : worker.Owning)
include owning

lemma Owning.setTask (mem : task ∈ worker.tasks) (sameId : made.id = task.id) (sameScope : made.scope = task.scope)
    (owned : made.cache.Owned worker.spill after made.scope made.appended)
    (touches : Touches made.scope worker.disk after) :
    ({worker with disk := after}.setTask made).Owning := by
  have other : ∀ task ∈ worker.tasks, task.id ≠ made.id → worker.spill.isSome = true → task.scope ≠ made.scope := by
    intro other among apart given same
    rw [sameScope,owning.alone given other among task mem,← sameId] at same
    exact apart same
  have members : ∀ other ∈ ({worker with disk := after}.setTask made).tasks,
      other = made ∨ other ∈ worker.tasks ∧ other.id ≠ made.id := by
    intro other among
    rcases mem_append.mp among with old | new
    · exact .inr (mem_others old)
    · exact .inl (mem_singleton.mp new)
  refine ⟨touches.calm,owning.distinct,?_,?_,owning.unspilled,?_,?_,?_⟩
  · intro running among
    rcases members running among with rfl | ⟨old,apart⟩
    · exact owned
    · exact owning.producer old touches (other running old apart)
  · intro entry kept
    refine owning.frame kept touches fun given same => ?_
    exact owning.shared given task mem entry kept (same.trans sameScope)
  · intro given entry kept held free partition
    have apart : entry.key ≠ made.scope :=
      fun same => free made (mem_append_right _ mem_cons_self) same.symm
    change after.files entry.key partition = []
    rw [touches.apart entry.key apart]
    refine owning.bare given entry kept held (fun running old same => ?_) partition
    by_cases mine : running.id = made.id
    · rw [sameId,← owning.alone given running old task mem,← sameScope] at mine
      exact apart (same.symm.trans mine)
    · exact free running (mem_append_left _ (mem_filter.mpr ⟨old,by simpa using mine⟩)) same
  · intro given first one second two
    rcases members first one with rfl | ⟨old,firstApart⟩ <;>
      rcases members second two with rfl | ⟨also,secondApart⟩
    · simp
    · exact iff_of_false (other second also secondApart given).symm (Ne.symm secondApart)
    · exact iff_of_false (other first old firstApart given) firstApart
    · exact owning.alone given first old second also
  · intro given running among entry kept same
    rcases members running among with rfl | ⟨old,_⟩
    · exact owning.shared given task mem entry kept (same.trans sameScope)
    · exact owning.shared given running old entry kept same

lemma Owning.start (absent : worker.task made.id = none)
    (vacant : worker.spill.isSome = true → worker.Vacant made.scope)
    (owned : made.cache.Owned worker.spill worker.disk made.scope made.appended) :
    (worker.setTask made).Owning := by
  have unused : ∀ task ∈ worker.tasks, task.id ≠ made.id := by simpa [task] using absent
  have members : ∀ other ∈ (worker.setTask made).tasks, other = made ∨ other ∈ worker.tasks := by
    intro other among
    rcases mem_append.mp among with old | new
    · exact .inr (mem_others old).1
    · exact .inl (mem_singleton.mp new)
  have kept : ∀ task ∈ worker.tasks, task ∈ (worker.setTask made).tasks := fun task among =>
    mem_append_left _ (mem_filter.mpr ⟨among,by simpa using unused task among⟩)
  refine ⟨owning.calm,owning.distinct,?_,owning.holds,owning.unspilled,?_,?_,?_⟩
  · intro running among
    rcases members running among with rfl | old
    · exact owned
    · exact owning.producers running old
  · intro given entry mem held free
    exact owning.bare given entry mem held fun task among => free task (kept task among)
  · intro given first one second two
    obtain ⟨_,fresh,_⟩ := vacant given
    rcases members first one with rfl | old <;> rcases members second two with rfl | also
    · simp
    · exact iff_of_false (fresh second also).symm (Ne.symm (unused second also))
    · exact iff_of_false (fresh first old) (unused first old)
    · exact owning.alone given first old second also
  · intro given running among entry mem same
    rcases members running among with rfl | old
    · exact (vacant given).2.2 entry mem same
    · exact owning.shared given running old entry mem same

lemma Owning.leave (mem : task ∈ worker.tasks) :
    {worker.dropTask task.id with stageOutputs := worker.stageOutputs.remove task.scope}.Owning := by
  have entries : ∀ entry ∈ worker.stageOutputs.remove task.scope,
      entry ∈ worker.stageOutputs ∧ entry.key ≠ task.scope := by
    intro entry kept
    simpa using mem_filter.mp kept
  refine ⟨owning.calm,owning.distinct.sublist (filter_sublist.map _),?_,?_,?_,?_,?_,?_⟩
  · exact fun other among => owning.producers other (mem_others among).1
  · exact fun entry kept => owning.holds entry (entries entry kept).1
  · exact fun none entry kept => owning.unspilled none entry (entries entry kept).1
  · intro given entry kept held free
    obtain ⟨old,apart⟩ := entries entry kept
    refine owning.bare given entry old held fun other among same => ?_
    by_cases mine : other.id = task.id
    · rw [← owning.alone given other among task mem] at mine
      exact apart (same.symm.trans mine)
    · exact free other (mem_filter.mpr ⟨among,by simpa using mine⟩) same
  · exact fun given first one second two => owning.alone given first (mem_others one).1 second (mem_others two).1
  · exact fun given other among entry kept =>
      owning.shared given other (mem_others among).1 entry (entries entry kept).1

lemma Owning.sweep (touches : Touches scope worker.disk after)
    (producers : worker.spill.isSome = true → ∀ task ∈ worker.tasks, task.scope ≠ scope)
    (entries : ∀ entry ∈ worker.stageOutputs, entry.key ≠ scope) :
    {worker with disk := after}.Owning := by
  refine ⟨touches.calm,owning.distinct,?_,?_,owning.unspilled,?_,owning.alone,owning.shared⟩
  · exact fun task among => owning.producer among touches fun given => producers given task among
  · exact fun entry kept => owning.frame kept touches fun _ same => absurd same (entries entry kept)
  · intro given entry kept held free partition
    rw [touches.apart entry.key (entries entry kept)]
    exact owning.bare given entry kept held free partition

lemma Owning.place {next : Worker} (spill : next.spill = worker.spill) (tasks : next.tasks = worker.tasks)
    (committed : next.committed = Function.update worker.committed scope appended)
    (distinct : (next.stageOutputs.map (·.key)).Nodup)
    (members : ∀ entry ∈ next.stageOutputs, entry.key = scope ∧ entry.cache = cache ∨
      entry ∈ worker.stageOutputs ∧ entry.key ≠ scope)
    (owned : cache.Owned worker.spill next.disk scope appended)
    (touches : Touches scope worker.disk next.disk)
    (free : worker.spill.isSome = true → ∀ task ∈ worker.tasks, task.scope ≠ scope) :
    next.Owning := by
  constructor
  · exact touches.calm
  · exact distinct
  · intro task among
    rw [tasks] at among
    rw [spill]
    exact owning.producer among touches fun given => free given task among
  · intro entry mem
    rw [committed]
    rcases members entry mem with ⟨same,cached⟩ | ⟨old,apart⟩
    · rw [same,cached,Function.update_self]
      exact owned.holds
    · rw [Function.update_of_ne apart]
      exact owning.frame old touches fun _ same => absurd same apart
  · intro none entry mem
    rw [spill] at none
    rcases members entry mem with ⟨_,cached⟩ | ⟨old,_⟩
    · rw [cached]
      exact owned.unspilled none
    · exact owning.unspilled none entry old
  · intro given entry mem held others partition
    rw [spill] at given
    rw [tasks] at others
    rcases members entry mem with ⟨same,cached⟩ | ⟨old,apart⟩
    · rw [same]
      exact owned.bare (cached ▸ held) given partition
    · rw [touches.apart entry.key apart]
      exact owning.bare given entry old held others partition
  · rw [spill,tasks]
    exact owning.alone
  · intro given task among entry mem same
    rw [spill] at given
    rw [tasks] at among
    rcases members entry mem with ⟨here,_⟩ | ⟨old,_⟩
    · exact absurd (same.symm.trans here) (free given task among)
    · exact owning.shared given task among entry old same

lemma Owning.evict (keep stamps) :
    {worker with stageOutputs := worker.stageOutputs.filter keep,stageInserted := stamps}.Owning := by
  have old : ∀ entry ∈ worker.stageOutputs.filter keep, entry ∈ worker.stageOutputs :=
    fun entry mem => mem_of_mem_filter mem
  exact ⟨owning.calm,owning.distinct.sublist (filter_sublist.map _),owning.producers,
    fun entry mem => owning.holds entry (old entry mem),
    fun none entry mem => owning.unspilled none entry (old entry mem),
    fun given entry mem => owning.bare given entry (old entry mem),owning.alone,
    fun given task among entry mem => owning.shared given task among entry (old entry mem)⟩

lemma Owning.stamp (stamps) : {worker with stageInserted := stamps}.Owning :=
  ⟨owning.calm,owning.distinct,owning.producers,owning.holds,owning.unspilled,owning.bare,owning.alone,owning.shared⟩

lemma Owning.note : (worker.noteStageOutputInsert key now).Owning := by
  unfold noteStageOutputInsert
  simp only
  split
  · exact owning.stamp _
  · exact (owning.stamp _).evict _ _

end

lemma enforceTotalBudget_eq (given : worker.spill = some store)
    (done : worker.stageOutputs.enforceTotalBudget store worker.disk = (.ok (),stages,left)) :
    worker.enforceTotalBudget = (.ok (),{worker with stageOutputs := stages,disk := left}) := by
  obtain ⟨spill,keepSpill,ttl,outputs,stamps,disk,tasks,committed⟩ := worker
  cases given
  simp only [enforceTotalBudget,done]

lemma Owning.enforce (owning : worker.Owning) (apart : (worker.spill.bind (·.totalLimitBytes)).isSome = true →
      ∀ task ∈ worker.tasks, ∀ entry ∈ worker.stageOutputs, task.scope ≠ entry.key) :
    ∃ next, worker.enforceTotalBudget = (.ok (),next) ∧ next.Owning := by
  cases given : worker.spill with
  | none => exact ⟨worker,by rw [enforceTotalBudget,given],owning⟩
  | some store =>
    cases limited : store.totalLimitBytes with
    | none => exact ⟨worker,enforceTotalBudget_eq given (by
        rw [StageCache.enforceTotalBudget,limited]),owning⟩
    | some limit =>
      have apart := apart (by simp [given,limited])
      obtain ⟨stages,left,done,keys,calm,owned,frame⟩ := StageCache.enforceWithin_owned store limit
        (worker.stageOutputs.length + 1) worker.stageOutputs worker.disk worker.committed owning.calm
        owning.distinct (by
          intro entry mem
          rw [← given]
          exact owning.entry mem fun _ task among => apart task among entry mem)
      refine ⟨_,enforceTotalBudget_eq given (by
        rw [StageCache.enforceTotalBudget,limited]; exact done),?_⟩
      have old : ∀ entry ∈ stages, ∃ before ∈ worker.stageOutputs, before.key = entry.key := by
        intro entry mem
        have key : entry.key ∈ worker.stageOutputs.map (·.key) := keys ▸ mem_map_of_mem mem
        simpa using key
      have free : ∀ task ∈ worker.tasks, ∀ entry ∈ stages, task.scope ≠ entry.key := by
        intro task among entry mem same
        obtain ⟨before,kept,key⟩ := old entry mem
        exact apart task among before kept (same.trans key.symm)
      have untouched : ∀ task ∈ worker.tasks, left.files task.scope = worker.disk.files task.scope := by
        intro task among
        apply frame
        intro mem
        obtain ⟨before,kept,key⟩ := mem_map.mp mem
        exact apart task among before kept key.symm
      constructor
      · exact calm
      · exact keys ▸ owning.distinct
      · exact fun task among => (owning.producers task among).congr fun _ => untouched task among
      · exact fun entry mem => (owned entry mem).holds
      · intro none
        rw [given] at none
        cases none
      · exact fun _ entry mem held _ => (owned entry mem).bare held rfl
      · exact owning.alone
      · exact fun _ task among entry mem same => absurd same.symm (free task among entry mem)

lemma clearScopedStage_touches (worker : Worker) (calm : worker.disk.faults = []) :
    ∃ after, worker.clearScopedStage scope = {worker with disk := after} ∧ Touches scope worker.disk after ∧
      (worker.spill.isSome = true → ∀ partition, after.files scope partition = []) := by
  unfold clearScopedStage
  split
  · next none => exact ⟨worker.disk,rfl,⟨calm,fun _ _ => rfl⟩,by simp [none]⟩
  · refine ⟨_,rfl,⟨calm,fun other apart => ?_⟩,fun _ partition => ?_⟩
    · funext partition
      exact if_neg apart
    · exact if_pos rfl

lemma fresh_owned (spill disk) (bare : spill.isSome = true → ∀ partition, disk.files scope partition = []) :
    (StageTask.fresh id scope numPartitions schema).cache.Owned spill disk scope fun _ => [] := by
  refine ⟨fun partition => ?_,fun _ => bare,fun _ => trivial⟩
  unfold bucketRecords
  rw [getElem?_replicate]
  split <;> rfl

lemma Owning.flush (owning : worker.Owning) (mem : task ∈ worker.tasks) (partition : Nat)
    (batches) : (worker.flush task partition batches).Owning := by
  obtain ⟨cache,after,appended,owned,touches⟩ := BucketCache.appendPartition_owned task.schema
    partition batches owning.calm (owning.producers task mem)
  unfold Worker.flush
  rw [appended]
  exact @Owning.setTask worker task {task with cache,appended := appendTo task.appended partition batches}
    after owning mem rfl rfl owned touches

lemma Owning.collect (owning : worker.Owning) (mem : task ∈ worker.tasks) (schema : Schema)
    (buckets) : (worker.collect task schema buckets).Owning := by
  obtain ⟨cleared,clears,clearing,bare⟩ := clearScopedStage_touches worker owning.calm
  obtain ⟨cache,after,spilled,owned,touches⟩ := BucketCache.maybeSpill_owned worker.spill schema
    buckets clearing.calm bare
  unfold Worker.collect
  rw [clears]
  simp only [spilled]
  exact @Owning.setTask worker task {task with schema,cache,appended := bucketRecords buckets} after owning
    mem rfl rfl owned (clearing.trans touches)

lemma Owning.retry (owning : worker.Owning) (mem : task ∈ worker.tasks) (schema : Schema) :
    (worker.retry task schema).Owning := by
  obtain ⟨cleared,clears,clearing,bare⟩ := clearScopedStage_touches worker owning.calm
  unfold Worker.retry
  rw [clears]
  exact @Owning.setTask worker task (.fresh task.id task.scope task.numPartitions schema) cleared owning
    mem rfl rfl (fresh_owned _ _ bare) clearing

lemma Owning.reap (owning : worker.Owning) (mem : task ∈ worker.tasks) : (worker.reap task).Owning := by
  obtain ⟨cleared,clears,clearing,_⟩ := clearScopedStage_touches (worker.dropTask task.id) owning.calm
  unfold Worker.reap
  rw [clears]
  refine ((owning.leave mem).sweep clearing ?_ ?_).stamp _
  · intro given other among same
    obtain ⟨old,apart⟩ := mem_others among
    exact apart ((owning.alone given other old task mem).mp same)
  · intro entry kept
    simpa using (mem_filter.mp kept).2

lemma insert_members (stages : StageCache) (mem : found ∈ stages.insert entry) :
    found.key = entry.key ∧ found.cache = entry.cache ∨ found ∈ stages.remove entry.key ∧ found.key ≠ entry.key := by
  rcases mem_append.mp mem with kept | new
  · exact .inr ⟨kept,by simpa using (mem_filter.mp kept).2⟩
  · cases mem_singleton.mp new
    exact .inl ⟨rfl,rfl⟩

lemma insert_distinct {stages : StageCache} (distinct : (stages.map (·.key)).Nodup) :
    ((stages.insert entry).map (·.key)).Nodup := by
  unfold StageCache.insert
  rw [map_append,nodup_append]
  refine ⟨distinct.sublist (filter_sublist.map _),nodup_singleton _,?_⟩
  intro key kept other new same
  cases mem_singleton.mp new
  obtain ⟨found,mem,here⟩ := mem_map.mp kept
  have apart := (mem_filter.mp mem).2
  simp [here,same] at apart

lemma Owning.commit (owning : worker.Owning) (mem : task ∈ worker.tasks) (now : Nat)
    (apart : worker.Apart (some task.id)) : (worker.commit task now).Owning := by
  have scopes : worker.spill.isSome = true → ∀ other ∈ (worker.dropTask task.id).tasks, other.scope ≠ task.scope := by
    intro given other among same
    obtain ⟨old,ne⟩ := mem_others among
    exact ne ((owning.alone given other old task mem).mp same)
  have placed : (((worker.dropTask task.id).insertOutput
      ⟨task.scope,task.schema,task.cache⟩).record task.scope task.appended).Owning :=
    (owning.leave mem).place rfl rfl rfl (insert_distinct owning.distinct)
      (fun entry kept => insert_members _ kept) (owning.producers task mem)
      ⟨owning.calm,fun _ _ => rfl⟩ scopes
  obtain ⟨next,done,kept⟩ := placed.enforce (by
    intro limited other among entry kept
    obtain ⟨old,ne⟩ := mem_others among
    rcases insert_members _ kept with ⟨same,_⟩ | ⟨there,_⟩
    · rw [same]
      exact scopes (by
        cases given : worker.spill with
        | none => simp [record,insertOutput,dropTask,given] at limited
        | some store => rfl) other among
    · exact apart limited other old (by simpa using ne) entry (mem_of_mem_filter there))
  unfold Worker.commit
  rw [done]
  exact kept.note

structure Pushed (worker next : Worker) (key : Scope) : Prop where
  spill : next.spill = worker.spill
  tasks : next.tasks = worker.tasks
  members : ∀ entry ∈ next.stageOutputs, entry.key = key ∨ entry ∈ worker.stageOutputs

lemma Owning.appendPushed (owning : worker.Owning) (stage partition : Nat) (schema batch)
    (free : worker.spill.isSome = true →
      (∀ task ∈ worker.tasks, task.scope ≠ ⟨stage,pushSrc⟩) ∧
        (worker.stageOutputs.get ⟨stage,pushSrc⟩ = none →
          ∀ partition, worker.disk.files ⟨stage,pushSrc⟩ partition = [])) :
    (∃ e, worker.appendPushed stage partition schema batch = (.error e,worker)) ∨
    ∃ next, worker.appendPushed stage partition schema batch = (.ok (),next) ∧ Pushed worker next ⟨stage,pushSrc⟩ ∧
      (next.record ⟨stage,pushSrc⟩ (appendTo (next.committed ⟨stage,pushSrc⟩) partition [batch])).Owning := by
  generalize named : (⟨stage,pushSrc⟩ : Scope) = key at free ⊢
  unfold Worker.appendPushed
  simp only [named]
  cases found : worker.stageOutputs.get key with
  | some entry =>
    have there := mem_of_find?_eq_some found
    have same : entry.key = key := StageCache.key_of_get found
    by_cases drift : entry.schema ≠ schema
    · exact .inl ⟨_,if_pos drift⟩
    have own := owning.entry there fun given => same ▸ (free given).1
    rw [same] at own
    obtain ⟨cache,after,appended,owned,touches⟩ := BucketCache.appendPartition_owned entry.schema
      partition [batch] owning.calm own
    refine .inr ⟨{worker with stageOutputs := worker.stageOutputs.setCache key cache,disk := after},
      ?_,⟨rfl,rfl,?_⟩,?_⟩
    · simp only [if_neg drift,BucketCache.appendBatch,appended]
    · intro other mem
      rcases StageCache.mem_setCache mem with ⟨here,_⟩ | ⟨old,_⟩
      · exact .inl here
      · exact .inr old
    · exact owning.place rfl rfl rfl (by
        change (List.map _ (StageCache.setCache _ _ _)).Nodup
        rw [StageCache.keys_setCache]
        exact owning.distinct) (fun _ mem => StageCache.mem_setCache mem) owned touches
        fun given => (free given).1
  | none =>
    obtain ⟨cache,after,made,owned,touches⟩ := BucketCache.maybeSpill_owned worker.spill schema
      (BucketCache.extendBucket [] partition [batch]) owning.calm fun given => (free given).2 found
    refine .inr ⟨({worker with disk := after}.insertOutput ⟨key,schema,cache⟩).record key fun _ => [],
      ?_,⟨rfl,rfl,?_⟩,?_⟩
    · simp only [BucketCache.fromPartition,made]
    · intro other mem
      rcases insert_members _ mem with ⟨here,_⟩ | ⟨old,_⟩
      · exact .inl here
      · exact .inr (mem_of_mem_filter old)
    · rw [BucketCache.bucketRecords_extendBucket] at owned
      refine owning.place rfl rfl ?_ (insert_distinct owning.distinct) (fun entry mem => ?_) owned
        touches fun given => (free given).1
      · funext other
        by_cases same : other = key
        · simp [record]
          rfl
        · simp [record,insertOutput,same]
      · rcases insert_members _ mem with here | ⟨old,apart⟩
        · exact .inl here
        · exact .inr ⟨mem_of_mem_filter old,apart⟩

lemma Owning.push (owning : worker.Owning) (stage partition schema batch now)
    (orderly : worker.Orderly (.push stage partition schema batch now)) :
    (worker.cacheAppendBatch stage partition schema batch now).2.Owning := by
  obtain ⟨apart,free⟩ := orderly
  unfold cacheAppendBatch
  rcases owning.appendPushed stage partition schema batch free with
    ⟨e,refused⟩ | ⟨next,appended,pushed,kept⟩
  · simp only [refused]
    exact owning
  · obtain ⟨last,done,still⟩ := kept.enforce (by
      intro limited task among entry mem
      change (next.spill.bind _).isSome = true at limited
      change task ∈ next.tasks at among
      rw [pushed.spill] at limited
      rw [pushed.tasks] at among
      rcases pushed.members entry mem with here | old
      · rw [here]
        refine (free ?_).1 task among
        cases given : worker.spill with
        | none => simp [given] at limited
        | some store => rfl
      · exact apart limited task among (by simp) entry old)
    simp only [appended,done]
    exact still.note

lemma files_clearStages (stages : List Nat) (disk) :
    (stages.foldl SpillStore.clearStage disk).faults = disk.faults ∧
      ∀ scope, (stages.foldl SpillStore.clearStage disk).files scope =
        if scope.stage ∈ stages then fun _ => [] else disk.files scope := by
  induction stages generalizing disk with
  | nil => exact ⟨rfl,fun _ => rfl⟩
  | cons stage rest ih =>
    obtain ⟨faults,files⟩ := ih (SpillStore.clearStage disk stage)
    refine ⟨faults,fun scope => ?_⟩
    rw [foldl_cons,files scope]
    by_cases later : scope.stage ∈ rest
    · simp [later]
    · funext partition
      by_cases here : scope.stage = stage
      · simp [here,SpillStore.clearStage]
      · simp [later,here,SpillStore.clearStage]

lemma Owning.clearStages (owning : worker.Owning) (orderly : worker.Orderly .clearStages) :
    worker.clearStages.Owning := by
  unfold Worker.clearStages
  split
  · next clears =>
    rw [Bool.and_eq_true,Bool.not_eq_true'] at clears
    obtain ⟨faults,files⟩ := files_clearStages (worker.stageOutputs.map (·.key.stage)) worker.disk
    refine ⟨faults.trans owning.calm,nodup_nil,?_,by simp,by simp,by simp,owning.alone,by simp⟩
    intro task among
    have owned := owning.producers task among
    by_cases held : task.cache.InMemory
    · refine ⟨owned.holds.of_memory held,fun _ given partition => ?_,owned.unspilled⟩
      rw [files]
      split
      · rfl
      · exact owned.bare held given partition
    · refine owned.congr fun _ => ?_
      rw [files,if_neg]
      intro mem
      obtain ⟨entry,cached,same⟩ := mem_map.mp mem
      exact orderly clears.1 clears.2 task among held entry cached same
  · exact ⟨owning.calm,nodup_nil,owning.producers,by simp,by simp,by simp,owning.alone,by simp⟩

lemma Owning.rehash (owning : worker.Owning) (stages) : (worker.rehash stages).Owning := by
  unfold Worker.rehash
  split
  · next same =>
    have old : ∀ entry ∈ stages, entry ∈ worker.stageOutputs := fun entry => same.mem_iff.mp
    exact ⟨owning.calm,(same.map _).nodup_iff.mpr owning.distinct,owning.producers,
      fun entry mem => owning.holds entry (old entry mem),
      fun none entry mem => owning.unspilled none entry (old entry mem),
      fun given entry mem => owning.bare given entry (old entry mem),owning.alone,
      fun given task among entry mem => owning.shared given task among entry (old entry mem)⟩
  · exact owning

lemma Owning.step (owning : worker.Owning) (event : WorkerEvent)
    (orderly : worker.Orderly event) : (worker.step event).Owning := by
  have onTask : ∀ id change, (∀ task ∈ worker.tasks, task.id = id → (change task).Owning) →
      (worker.onTask id change).Owning := by
    intro id change kept
    unfold Worker.onTask
    split
    · exact owning
    · next task found =>
      obtain ⟨mem,same⟩ := task_mem found
      exact kept task mem same
  cases event with
  | start id scope numPartitions schema =>
    simp only [Worker.step]
    split
    · exact owning
    · next absent => exact owning.start absent orderly (fresh_owned _ _ fun given => (orderly given).1)
  | flush id partition batches => exact onTask id _ fun task mem _ => owning.flush mem partition batches
  | collect id schema buckets => exact onTask id _ fun task mem _ => owning.collect mem schema buckets
  | retry id schema => exact onTask id _ fun task mem _ => owning.retry mem schema
  | commit id now => exact onTask id _ fun task mem same => owning.commit mem now (same.symm ▸ orderly)
  | fail id => exact onTask id _ fun task mem _ => owning.reap mem
  | push stage partition schema batch now => exact owning.push stage partition schema batch now orderly
  | clearStages => exact owning.clearStages orderly
  | rehash stages => exact owning.rehash stages

/-- In every history whose events are orderly, what is committed is served. -/
theorem spilling_transparent (spill : Option SpillStore) (keepSpill : Bool) (ttl : Nat)
    (events : List WorkerEvent) (orderly : Steps.Meets step Orderly {spill,keepSpill,stageOutputTtl := ttl} events) :
    (Steps.run step {spill,keepSpill,stageOutputTtl := ttl} events).Transparent :=
  (Steps.run_invariant step Orderly Owning (fun _ event owning => owning.step event) _ events orderly
    ((⟨rfl,nodup_nil,by simp,by simp,by simp,by simp,by simp,by simp⟩))).transparent

namespace Sample

def batch (value : Int) : Batch where
  schema := [⟨"v",.int64⟩]
  rows := [[some (.int value)]]
  memory := 8

def forced : Worker := {spill := some {forceSpill := true},keepSpill := false,stageOutputTtl := 0}

def producing (id : Nat) (first second : Int) : List WorkerEvent :=
  [.start id ⟨0,0⟩ 1 [⟨"v",.int64⟩],.flush id 0 [batch first],.flush id 0 [batch second],.commit id 0]

/-- The next query begins after the stages of the last one are cleared. -/
theorem cleared_transparent :
    Steps.Meets step Orderly forced (producing 1 7 8 ++ .clearStages::producing 2 9 10) ∧
    (Steps.run step forced (producing 1 7 8 ++ .clearStages::producing 2 9 10)).Transparent := by
  have orderly : Steps.Meets step Orderly forced (producing 1 7 8 ++ .clearStages::producing 2 9 10) := by
    refine ⟨fun _ => ⟨fun _ => rfl,by decide,by decide⟩,trivial,trivial,?_,?_,?_⟩
    · exact fun limited => (Bool.false_ne_true limited).elim
    · exact fun _ _ task among => (not_mem_nil among).elim
    · refine ⟨fun _ => ⟨fun _ => rfl,by decide,by decide⟩,trivial,trivial,?_,trivial⟩
      exact fun limited => (Bool.false_ne_true limited).elim
  exact ⟨orderly,spilling_transparent _ _ _ _ orderly⟩

/-- The retry of a committed task truncates the first file of the bucket and keeps the second. -/
theorem retried_not_transparent : ¬(Steps.run step forced (producing 1 7 8 ++ producing 2 7 8)).Transparent := by
  intro transparent
  obtain ⟨batches,read,same⟩ := transparent
    (CachedStage.mk ⟨0,0⟩ [⟨"v",.int64⟩] (.spilled [⟨"v",.int64⟩] {forceSpill := true} ⟨0,0⟩ [2]))
    (by decide) 0
  have served : BucketCache.readPartition (Steps.run step forced (producing 1 7 8 ++ producing 2 7 8)).disk
      (.spilled [⟨"v",.int64⟩] {forceSpill := true} ⟨0,0⟩ [2]) 0 =
      .ok [(batch 7).toRecordBatch,(batch 8).toRecordBatch,(batch 8).toRecordBatch] := rfl
  cases read
  revert same
  decide

end Sample
end Worker
end Oxidant.Shuffle
