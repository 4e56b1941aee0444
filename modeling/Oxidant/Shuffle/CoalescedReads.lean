import Mathlib.Data.List.Flatten
import Mathlib.Data.List.Nodup
import Oxidant.Lib.Traverse
import Oxidant.Shuffle.Spill

/-! Coalesced reading of hashed stages: the readers of a consumer share out the buckets of its
upstreams, and rows of one key come to one reader if its columns have one type. -/
namespace Oxidant.Shuffle
open List hiding format
open Lib
open Streaming (RecordBatch DataType Scalar Row)

/-- Arrow's row format: the types it takes, and the bytes of key values of given types. -/
structure RowFormat where
  accepts : List DataType → Except Error Unit
  bytes : List DataType → List (Option Scalar) → List UInt8

def fnv1a (bytes : List UInt8) : UInt64 :=
  bytes.foldl (fun h b => (h ^^^ b.toUInt64) * 0x100000001b3) 0xcbf29ce484222325

def keyTypes (keyCols : List Nat) (batch : RecordBatch) : List DataType := keyCols.map batch.dataType

def keyValues (keyCols : List Nat) (row : Row) : List (Option Scalar) := keyCols.map row.cell

def keyBucket (format : RowFormat) (n : Nat) (types : List DataType) (values : List (Option Scalar)) : Nat :=
  (fnv1a (format.bytes types values)).toNat % n

def hashPartition (format : RowFormat) (batches : List RecordBatch) (keyCols : List Nat) (n : Nat) :
    Except Error (List (List RecordBatch)) :=
  match batches with
  | [] => .ok (List.replicate n [])
  | first::_ => do
    if keyCols = [] then return batches::List.replicate (n - 1) []
    format.accepts (keyTypes keyCols first)
    if batches.any fun batch => keyTypes keyCols batch ≠ keyTypes keyCols first then
      throw (.execution "convert columns")
    return (List.range n).map fun bucket => batches.filterMap fun batch =>
      let rows := batch.rows.filter fun row =>
        keyBucket format n (keyTypes keyCols batch) (keyValues keyCols row) = bucket
      if rows = [] then none else some {batch with rows}

/-- The tasks by which a stage with upstreams reads them, one for each reader partition. -/
def QueryPlan.Reads (plan : QueryPlan) (coalesced : List (Nat × Nat)) (stage : StageDef)
    (tasks : List StageRun) : Prop :=
  stage.upstreamStageIds ≠ [] ∧ (stage.exchange = .hash ∧ plan.stageTasks coalesced stage = .ok tasks ∨
      stage.exchange ≠ .forward ∧ stage = plan.output ∧ plan.outputTasks coalesced = .ok tasks)

variable {plan : QueryPlan} {stage : StageDef} {coalesced : List (Nat × Nat)} {tasks : List StageRun} {modulus : Nat}

lemma QueryPlan.Reads.partitionTasks (reads : plan.Reads coalesced stage tasks)
    (chosen : (consumerReadModulus stage coalesced).getD plan.cluster.numPartitions = modulus)
    (positive : 1 ≤ modulus) (bounded : modulus ≤ plan.cluster.numPartitions) :
    ∃ produce, plan.partitionTasks stage modulus produce = .ok tasks := by
  obtain ⟨upstreams,⟨hashed,ok⟩ | ⟨apart,rfl,ok⟩⟩ := reads
  · refine ⟨true,?_⟩
    rw [QueryPlan.stageTasks,if_pos (by simp [hashed,upstreams]),chosen,Nat.min_eq_left bounded,
      Nat.max_eq_right positive] at ok
    exact ok
  · refine ⟨false,?_⟩
    rw [QueryPlan.outputTasks,if_neg apart,if_neg (by simp [upstreams]),chosen] at ok
    exact ok

lemma partitionTasks_tickets (ok : plan.partitionTasks stage modulus produce = .ok tasks) :
    tasks.map (·.ticket) =
      (List.range modulus).map
        fun p => stageTicket stage p plan.cluster.numPartitions modulus plan.cluster produce plan.stages := by
  have each := mapM_eq_ok.mp ok
  clear ok
  generalize List.range modulus = partitions at each ⊢
  induction each with
  | nil => rfl
  | cons made _ ih =>
    obtain ⟨endpoint,_,same⟩ := bind_eq_ok.mp made
    cases same
    exact congrArg _ ih

lemma classes_perm (positive : 1 ≤ modulus) :
    ((List.range modulus).flatMap (coalescedReadBuckets np modulus)).Perm (List.range np) := by
  have read : ∀ p ∈ List.range modulus, coalescedReadBuckets np modulus p =
      (List.range np).filter fun bucket => bucket % modulus = p := by
    intro p inside
    rw [coalescedReadBuckets,Nat.max_eq_left positive,if_neg (Nat.not_le.mpr (mem_range.mp inside))]
  rw [flatMap_congr read]
  rw [perm_ext_iff_of_nodup _ nodup_range]
  · intro bucket
    simp only [mem_flatMap,mem_range,mem_filter,decide_eq_true_eq]
    constructor
    · rintro ⟨_,_,inside,_⟩
      exact inside
    · intro inside
      exact ⟨_,Nat.mod_lt _ positive,inside,rfl⟩
  · rw [nodup_flatMap]
    refine ⟨fun _ _ => nodup_range.filter _,nodup_range.imp ?_⟩
    intro p other apart bucket first second
    simp only [mem_filter,decide_eq_true_eq] at first second
    exact apart (first.2.symm.trans second.2)

lemma filter_zipIdx (image : α × Nat → List β) (place : β → Nat)
    (placed : ∀ item, ∀ made ∈ image item, place made = item.2) (items : List α) :
    ((items.zipIdx start).flatMap image).filter (place · = wanted) =
      if wanted < start then [] else (items[wanted - start]?).elim [] fun item => image (item,wanted) := by
  induction items generalizing start with
  | nil => simp
  | cons item items ih =>
    rw [zipIdx_cons,flatMap_cons,filter_append,ih]
    rcases Nat.lt_trichotomy wanted start with below | rfl | above
    · rw [if_pos below,if_pos (Nat.lt_succ_of_lt below),append_nil,filter_eq_nil_iff]
      intro made mem
      simp [placed _ made mem,Nat.ne_of_gt below]
    · rw [if_pos (Nat.lt_succ_self _),if_neg (Nat.lt_irrefl _),Nat.sub_self,append_nil]
      exact filter_eq_self.mpr fun made mem => by simp [placed _ made mem]
    · have next : wanted - start = wanted - (start + 1) + 1 := by omega
      rw [if_neg (by omega),if_neg (by omega),next,getElem?_cons_succ,filter_eq_nil_iff.mpr]
      · rfl
      · intro made mem
        simp [placed _ made mem,Nat.ne_of_lt above]

lemma pulls_of_input {ticket : StageTicket}
    (there : ticket.upstreamStageIds[input]? = some upstream) :
    (ticket.pulls.filter fun pull => pull.input = input) = ticket.readBuckets.flatMap fun bucket =>
      (ticket.endpointsOf upstream).map fun endpoint => ⟨input,upstream,endpoint,bucket⟩ := by
  unfold StageTicket.pulls
  rw [filter_zipIdx _ Pull.input _]
  · rw [if_neg (Nat.not_lt_zero _),Nat.sub_zero,there]
    rfl
  · intro item made mem
    simp only [mem_flatMap,mem_map] at mem
    obtain ⟨_,_,_,_,rfl⟩ := mem
    rfl

def HashedTo (format : RowFormat) (n : Nat) (batches : List RecordBatch) (keyCols : List Nat)
    (types : List DataType) (values : List (Option Scalar)) (bucket : Nat) : Prop :=
  ∃ out held batch row, hashPartition format batches keyCols n = .ok out ∧ out[bucket]? = some held ∧
    batch ∈ held ∧ row ∈ batch.rows ∧ keyTypes keyCols batch = types ∧ keyValues keyCols row = values

lemma HashedTo.bucket_eq (hashed : HashedTo format n batches keyCols types values bucket) :
    bucket = if values = [] then 0 else keyBucket format n types values := by
  obtain ⟨out,held,batch,row,ok,there,mem,inside,rfl,rfl⟩ := hashed
  have keyed : keyValues keyCols row = [] ↔ keyCols = [] := map_eq_nil_iff
  rw [if_congr keyed rfl rfl]
  unfold hashPartition at ok
  split at ok
  · cases ok
    rw [(mem_replicate.mp (mem_of_getElem? there)).2] at mem
    cases mem
  · next first rest =>
    by_cases gathered : keyCols = []
    · rw [if_pos gathered] at ok ⊢
      cases ok
      cases bucket with
      | zero => rfl
      | succ bucket =>
        rw [(mem_replicate.mp (mem_of_getElem? there)).2] at mem
        cases mem
    · rw [if_neg gathered] at ok ⊢
      obtain ⟨_,_,ok⟩ := bind_eq_ok.mp ok
      split at ok
      · cases ok
      · cases ok
        rw [getElem?_map] at there
        obtain ⟨named,at_,rfl⟩ := Option.map_eq_some_iff.mp there
        obtain ⟨_,rfl⟩ := List.getElem?_eq_some_iff.mp at_
        obtain ⟨source,_,made⟩ := mem_filterMap.mp mem
        dsimp only at made
        split at made
        · cases made
        · cases made
          have hashed := of_decide_eq_true (mem_filter.mp inside).2
          exact (hashed.trans (getElem_range _)).symm

/-- A consumer's readers pull every bucket of every hashed upstream from every worker once, and two
rows of equal key values in columns of equal types come to the same readers. -/
theorem coalesced_reads_exact (reads : plan.Reads coalesced stage tasks)
    (chosen : (consumerReadModulus stage coalesced).getD plan.cluster.numPartitions = modulus)
    (positive : 1 ≤ modulus) (bounded : modulus ≤ plan.cluster.numPartitions) :
    (∀ input upstream, stage.upstreamStageIds[input]? = some upstream →
      (plan.stage upstream).map (·.exchange) = some .hash →
      ((tasks.flatMap (·.ticket.pulls)).filter fun pull => pull.input = input).Perm
        ((List.range plan.cluster.numPartitions).flatMap fun bucket =>
          plan.cluster.workers.map fun endpoint => ⟨input,upstream,endpoint,bucket⟩)) ∧
    ∀ format first firstCols firstTypes second secondCols secondTypes values bucket place,
      HashedTo format plan.cluster.numPartitions first firstCols firstTypes values bucket →
      HashedTo format plan.cluster.numPartitions second secondCols secondTypes values place →
      firstTypes = secondTypes →
      ∀ run ∈ tasks, bucket ∈ run.ticket.readBuckets ↔ place ∈ run.ticket.readBuckets := by
  constructor
  · intro input upstream there hashed
    obtain ⟨produce,ok⟩ := reads.partitionTasks chosen positive bounded
    have regrouped : tasks.flatMap (·.ticket.pulls) = (tasks.map (·.ticket)).flatMap StageTicket.pulls := by
      rw [flatMap_map]
    have apart : upstream ∉ forwardUpstreams stage plan.stages := by
      obtain ⟨found,is_,exchange⟩ := Option.map_eq_some_iff.mp hashed
      rw [QueryPlan.stage] at is_
      simp [forwardUpstreams,is_,exchange]
    rw [regrouped,partitionTasks_tickets ok,flatMap_map,filter_flatMap]
    have each : ∀ p ∈ List.range modulus, ((stageTicket stage p plan.cluster.numPartitions modulus
        plan.cluster produce plan.stages).pulls.filter fun pull => pull.input = input) =
          (coalescedReadBuckets plan.cluster.numPartitions modulus p).flatMap fun bucket =>
            plan.cluster.workers.map fun endpoint => ⟨input,upstream,endpoint,bucket⟩ := by
      intro p _
      rw [pulls_of_input there]
      simp [StageTicket.readBuckets,stageTicket,StageTicket.endpointsOf,apart,reads.1,bounded,Nat.ne_of_gt positive]
    rw [flatMap_congr each,← flatMap_assoc]
    exact (classes_perm positive).flatMap_right _
  · rintro format first firstCols types second secondCols _ values bucket place hashed hashed' rfl run _
    rw [hashed.bucket_eq,hashed'.bucket_eq]

namespace Sample

def threeBuckets : QueryPlan where
  cluster := ⟨["a"],3⟩
  stages := [{stageId := 0}]
  output := {stageId := 1,upstreamStageIds := [0]}

def twoReaders : List StageRun := (List.range 2).map fun p =>
  ⟨"a",stageTicket threeBuckets.output p 3 2 threeBuckets.cluster false threeBuckets.stages⟩

theorem two_readers_exact :
    ((twoReaders.flatMap (·.ticket.pulls)).filter fun pull => pull.input = 0).Perm
      [⟨0,0,"a",0⟩,⟨0,0,"a",1⟩,⟨0,0,"a",2⟩] := by
  have reads : threeBuckets.Reads [(0,2)] threeBuckets.output twoReaders :=
    ⟨by decide,.inr ⟨by decide,rfl,rfl⟩⟩
  exact (coalesced_reads_exact reads rfl (by decide) (by decide)).1 0 0 rfl rfl

def bigEndian (width value : Nat) : List UInt8 :=
  (List.range width).map fun place => UInt8.ofNat (value / 256^(width - 1 - place))

/-- Integers in Arrow's row format: a byte for the value being there, and the bytes from the highest
on, with the sign turned. -/
def integerRows : RowFormat where
  accepts := fun _ => .ok ()
  bytes types values := (types.zip values).flatMap fun
    | (.int32,some (.int value)) => 1::bigEndian 4 (value + 2^31).toNat
    | (.int64,some (.int value)) => 1::bigEndian 8 (value + 2^63).toNat
    | _ => [0]

def oneKey (type : DataType) : RecordBatch := ⟨[⟨"k",type⟩],[[some (.int 1)]]⟩

/-- The readers of an INT column and of a BIGINT column that both hold 1 are not the same. -/
theorem int_and_bigint_apart :
    HashedTo integerRows 3 [oneKey .int32] [0] [.int32] [some (.int 1)] 0 ∧
    HashedTo integerRows 3 [oneKey .int64] [0] [.int64] [some (.int 1)] 1 ∧
    threeBuckets.Reads [(0,2)] threeBuckets.output twoReaders ∧
    ∃ run ∈ twoReaders, 0 ∈ run.ticket.readBuckets ∧ 1 ∉ run.ticket.readBuckets := by
  refine ⟨⟨_,_,oneKey .int32,_,rfl,rfl,?_,mem_singleton_self _,rfl,rfl⟩,
    ⟨_,_,oneKey .int64,_,rfl,rfl,?_,mem_singleton_self _,rfl,rfl⟩,⟨by decide,.inr ⟨by decide,rfl,rfl⟩⟩,?_⟩
  · decide +kernel
  · decide +kernel
  · decide

end Sample
end Oxidant.Shuffle
