import Mathlib.Algebra.BigOperators.Ring.List
import Mathlib.Algebra.Order.BigOperators.Group.List
import Mathlib.Algebra.Order.Ring.Nat
import Oxidant.Shuffle.Spill

/-! The read modulus chosen at a stage barrier from the counts of each bucket's owner, and when no
reader then holds more rows than the largest bucket of all workers. -/
namespace Oxidant.Shuffle
open List

/-- The options of adaptive execution; `advisoryRows` is the size aimed at for a partition. -/
structure AqeConfig where
  enabled : Bool := true
  concentrated : Bool := true
  maxRows : Nat := 4096
  advisoryRows : Nat := 1048576

def classLoad (rows : Nat → Nat) (np m p : Nat) : Nat :=
  ((coalescedReadBuckets np m p).map rows).sum

def maxOf (loads : List Nat) : Nat := loads.max?.getD 0

def worstCoalescedLoad (counts : List Nat) (m : Nat) : Nat :=
  maxOf ((List.range (max m 1)).map (classLoad (fun bucket => counts[bucket]?.getD 0) counts.length m))

def AqeConfig.declines (config : AqeConfig) (floor : Nat) (counts : List Nat) : Bool :=
  decide (counts.sum < maxOf counts * 3) && decide (2 < counts.length) ||
    decide (config.maxRows < maxOf counts) || decide (counts.length ≤ floor)

def coalescedPartitions (config : AqeConfig) (workers np : Nat) (counts : List Nat) : Nat :=
  let floor := max workers 1
  if !config.enabled || counts.isEmpty then np
  else if counts.sum = 0 then 1
  else if !config.declines floor counts then
    let rows := max config.advisoryRows 1
    min (max ((counts.sum + rows - 1) / rows % 2^32) floor) np
  else if !config.concentrated then np
  else ((List.range' floor (np - floor)).find? fun m => worstCoalescedLoad counts m ≤ maxOf counts).getD np

section Barrier
variable (config : AqeConfig) (cluster : Cluster) (rows : String → Nat → Nat)

def ownerBucketRowCounts : List Nat :=
  (List.range cluster.numPartitions).map fun p => match cluster.ownerEndpoint p with
    | .ok endpoint => rows endpoint p
    | .error _ => 0

def bucketTotal (bucket : Nat) : Nat := (cluster.workers.map (rows · bucket)).sum

/-- Where a guard declines and the stage is still coalesced, no reader grows past the largest bucket. -/
def NeverGrows : Prop :=
  ∀ counts m, ownerBucketRowCounts cluster rows = counts → counts.sum ≠ 0 →
    config.declines (max cluster.workers.length 1) counts →
    coalescedPartitions config cluster.workers.length cluster.numPartitions counts = m →
    m < cluster.numPartitions → ∀ p < m, ∃ bucket < cluster.numPartitions,
      classLoad (bucketTotal cluster rows) cluster.numPartitions m p ≤ bucketTotal cluster rows bucket

end Barrier

variable {cluster : Cluster}

lemma readBuckets_sublist : (coalescedReadBuckets np m p).Sublist (List.range np) := by
  unfold coalescedReadBuckets
  dsimp only
  split
  · exact nil_sublist _
  · exact filter_sublist

lemma le_maxOf (mem : load ∈ loads) : load ≤ maxOf loads :=
  le_max?_getD_of_mem mem

lemma maxOf_mem (some_ : loads ≠ []) : maxOf loads ∈ loads := by
  obtain ⟨most,is_⟩ := Option.isSome_iff_exists.mp (isSome_max?_of_ne_nil some_)
  rw [maxOf,is_]
  exact max?_mem is_

lemma shrunk_of_declined (rows : counts.sum ≠ 0) (declined : config.declines (max workers 1) counts)
    (shrunk : coalescedPartitions config workers np counts < np) :
    config.enabled = true ∧ config.concentrated = true ∧ workers < np ∧
      worstCoalescedLoad counts (coalescedPartitions config workers np counts) ≤ maxOf counts := by
  unfold coalescedPartitions at shrunk ⊢
  simp only [rows,declined,if_false,Bool.not_true,Bool.false_eq_true] at shrunk ⊢
  split at shrunk
  · exact absurd shrunk (lt_irrefl _)
  · next on =>
    rw [if_neg on]
    split at shrunk
    · exact absurd shrunk (lt_irrefl _)
    · next concentrated =>
      rw [if_neg concentrated]
      cases found : List.find? _ _ with
      | none =>
        rw [found] at shrunk
        exact absurd shrunk (lt_irrefl _)
      | some m =>
        have fits := find?_some found
        have inside := mem_range'_1.mp (mem_of_find?_eq_some found)
        refine ⟨by simp_all,by simpa using concentrated,?_,of_decide_eq_true fits⟩
        omega

lemma neverGrows_of_scaled (factor : Nat) (scaled : ∀ bucket < cluster.numPartitions,
    bucketTotal cluster rows bucket = factor * (ownerBucketRowCounts cluster rows)[bucket]?.getD 0) :
    NeverGrows config cluster rows := by
  intro counts m sampled some_ declined chosen shrunk p inside
  have width : counts.length = cluster.numPartitions := by
    rw [← sampled,ownerBucketRowCounts,length_map,length_range]
  rw [sampled] at scaled
  have worst := (shrunk_of_declined some_ declined (chosen.symm ▸ shrunk)).2.2.2
  have nonempty : counts ≠ [] := fun empty => some_ (congrArg List.sum empty)
  obtain ⟨bucket,bounded,most⟩ := getElem_of_mem (maxOf_mem nonempty)
  refine ⟨bucket,width ▸ bounded,?_⟩
  have load : classLoad (bucketTotal cluster rows) cluster.numPartitions m p =
      factor * classLoad (fun bucket => counts[bucket]?.getD 0) counts.length m p := by
    rw [classLoad,classLoad,width,← sum_map_mul_left]
    congr 1
    apply map_congr_left
    intro bucket read
    exact scaled bucket (mem_range.mp ((readBuckets_sublist ..).subset read))
  rw [load,scaled bucket (width ▸ bounded),getElem?_eq_getElem bounded,Option.getD_some,most]
  apply Nat.mul_le_mul_left
  apply le_trans _ (chosen ▸ worst)
  apply le_maxOf
  exact mem_map.mpr ⟨p,mem_range.mpr (lt_of_lt_of_le inside (le_max_left ..)),rfl⟩

/-- The owner of bucket 0 has all its rows, and none of the other bucket's that reader 0 reads. -/
def unseenRows (config : AqeConfig) (cluster : Cluster) (endpoint : String) (bucket : Nat) : Nat :=
  let owned := decide (cluster.ownerEndpoint bucket = .ok endpoint)
  if bucket = 0 then if owned then config.maxRows + 1 else 0
  else if bucket = cluster.workers.length && !owned then 1 else 0

lemma ownerEndpoint_mem (some_ : cluster.workers ≠ []) (positive : cluster.numPartitions ≠ 0)
    (bucket) : ∃ endpoint ∈ cluster.workers, cluster.ownerEndpoint bucket = .ok endpoint := by
  have heaviest_mem (workers : List String) (some_ : workers ≠ []) :
      ∃ endpoint ∈ workers, heaviest bucket workers = some endpoint := by
    induction workers with
    | nil => exact absurd rfl some_
    | cons endpoint rest ih =>
      unfold heaviest
      cases found : heaviest bucket rest with
      | none => exact ⟨_,mem_cons_self,rfl⟩
      | some other =>
        obtain ⟨_,mem,is_⟩ := ih (by rintro rfl; cases found)
        cases found.symm.trans is_
        dsimp only
        split
        · exact ⟨_,mem_cons_of_mem _ mem,rfl⟩
        · exact ⟨_,mem_cons_self,rfl⟩
  obtain ⟨endpoint,mem,is_⟩ := heaviest_mem _ some_
  refine ⟨endpoint,mem,?_⟩
  rw [Cluster.ownerEndpoint,if_neg positive,is_]

lemma le_bucketTotal (mem : endpoint ∈ cluster.workers) : rows endpoint bucket ≤ bucketTotal cluster rows bucket :=
  le_sum_of_mem (mem_map_of_mem mem)

lemma worst_le_sum (m) : worstCoalescedLoad counts m ≤ counts.sum := by
  have some_ : (List.range (max m 1)).map
      (classLoad (fun bucket => counts[bucket]?.getD 0) counts.length m) ≠ [] := by
    simp
  obtain ⟨p,_,load⟩ := mem_map.mp (maxOf_mem some_)
  rw [worstCoalescedLoad,← load,classLoad]
  have whole : (List.range counts.length).map (fun bucket => counts[bucket]?.getD 0) = counts := by
    apply ext_getElem
    · simp
    · intro bucket _ inside
      simp [inside]
  conv_rhs => rw [← whole]
  exact ((readBuckets_sublist ..).map _).sum_le_sum fun _ _ => Nat.zero_le _

lemma chosen_floor (on : config.enabled = true) (concentrated : config.concentrated = true)
    (several : 1 < workers) (wide : workers < np) (large : config.maxRows < counts.sum)
    (single : counts.sum ≤ maxOf counts) :
    config.declines (max workers 1) counts ∧ coalescedPartitions config workers np counts = workers := by
  have declined : config.declines (max workers 1) counts := by
    simp only [AqeConfig.declines,Bool.or_eq_true,decide_eq_true_eq]
    exact .inl (.inr (lt_of_lt_of_le large single))
  refine ⟨declined,?_⟩
  obtain ⟨room,rfl⟩ := Nat.exists_eq_add_of_lt wide
  have fits := le_trans (worst_le_sum workers) single
  have some_ : counts.isEmpty = false := by
    cases counts with
    | nil => cases large
    | cons => rfl
  simp only [coalescedPartitions,declined,on,concentrated,some_,Nat.ne_zero_of_lt large]
  rw [Nat.max_eq_left (le_of_lt several)]
  simp [add_assoc,range'_succ,fits]

lemma two_reads (total) (positive : 0 < m) (wide : m < np) : total 0 + total m ≤ classLoad total np m 0 := by
  have read (bucket : Nat) (inside : bucket < np) (zero : bucket % m = 0) : bucket ∈ coalescedReadBuckets np m 0 := by
    simp [coalescedReadBuckets,Nat.max_eq_left positive,inside,zero,ne_of_gt positive]
  rw [classLoad,← sum_map_erase _ (read 0 (by omega) (Nat.zero_mod _))]
  apply Nat.add_le_add_left
  apply le_sum_of_mem
  apply mem_map_of_mem
  apply (mem_erase_of_ne (ne_of_gt positive)).mpr
  exact read m wide (Nat.mod_self _)

section Unseen
variable (wide : cluster.workers.length < cluster.numPartitions) (mem : first ∈ cluster.workers)
  (other : second ∈ cluster.workers) (apart : first ≠ second)
include wide mem

lemma unseenRows_counts :
    ∃ rest,
      ownerBucketRowCounts cluster (unseenRows config cluster) = (config.maxRows + 1)::List.replicate rest 0 := by
  have each : ∀ bucket ∈ List.range cluster.numPartitions, (match cluster.ownerEndpoint bucket with
      | .ok endpoint => unseenRows config cluster endpoint bucket
      | .error _ => 0) = if bucket = 0 then config.maxRows + 1 else 0 := by
    intro bucket _
    obtain ⟨owner,_,is_⟩ := ownerEndpoint_mem (ne_nil_of_mem mem) (Nat.ne_zero_of_lt wide) bucket
    simp [is_,unseenRows]
  obtain ⟨rest,count⟩ := Nat.exists_eq_succ_of_ne_zero (Nat.ne_zero_of_lt wide)
  refine ⟨rest,?_⟩
  rw [ownerBucketRowCounts,map_congr_left each,count,range_succ_eq_map]
  simp [Function.comp_def]

include other apart

lemma unseenRows_grow (on : config.enabled = true) (concentrated : config.concentrated = true) :
    ¬ NeverGrows config cluster (unseenRows config cluster) := by
  intro sound
  have owners := ownerEndpoint_mem (ne_nil_of_mem mem) (Nat.ne_zero_of_lt wide)
  have several : 1 < cluster.workers.length := by
    by_contra few
    obtain ⟨only,is_⟩ := length_eq_one_iff.mp (le_antisymm (Nat.le_of_not_lt few) (length_pos_of_mem mem))
    rw [is_,mem_singleton] at mem other
    exact apart (mem.trans other.symm)
  obtain ⟨rest,sampled⟩ := unseenRows_counts wide mem
  have sum : ((config.maxRows + 1)::List.replicate rest 0).sum = config.maxRows + 1 := by simp
  obtain ⟨declined,chosen⟩ := chosen_floor on concentrated several wide (by rw [sum]; omega)
    (by rw [sum]; exact le_maxOf mem_cons_self)
  obtain ⟨bucket,inside,least⟩ := sound _ _ sampled (by omega) declined chosen wide 0 (by omega)
  have seen : 0 < bucketTotal cluster (unseenRows config cluster) 0 := by
    obtain ⟨owner,listed,is_⟩ := owners 0
    apply lt_of_lt_of_le _ (le_bucketTotal listed)
    simp [unseenRows,is_]
  have unseen : 0 < bucketTotal cluster (unseenRows config cluster) cluster.workers.length := by
    obtain ⟨owner,_,is_⟩ := owners cluster.workers.length
    obtain ⟨lone,listed,differs⟩ : ∃ lone ∈ cluster.workers, owner ≠ lone := by
      by_cases same : owner = first
      · exact ⟨second,other,same ▸ apart⟩
      · exact ⟨first,mem,same⟩
    apply lt_of_lt_of_le _ (le_bucketTotal listed)
    simp [unseenRows,is_,differs,Nat.ne_zero_of_lt several]
  have both := two_reads (bucketTotal cluster (unseenRows config cluster)) (Nat.lt_of_succ_lt several) wide
  by_cases first : bucket = 0
  · rw [first] at least
    omega
  · by_cases last : bucket = cluster.workers.length
    · rw [last] at least
      omega
    · have none : bucketTotal cluster (unseenRows config cluster) bucket = 0 := by
        simp [bucketTotal,unseenRows,first,last]
      omega

end Unseen

/-- On a cluster no distribution makes a reader grow exactly if the path is off, has no room, or the
workers are one endpoint; elsewhere none whose owners see a share of every bucket alike. -/
theorem concentrated_coalescing_never_grows (config : AqeConfig) (cluster : Cluster) :
    ((∀ rows, NeverGrows config cluster rows) ↔
      config.enabled = false ∨ config.concentrated = false ∨
      cluster.numPartitions ≤ cluster.workers.length ∨
      ∀ first ∈ cluster.workers, ∀ second ∈ cluster.workers, first = second) ∧
    ∀ rows factor, (∀ bucket < cluster.numPartitions, bucketTotal cluster rows bucket =
      factor * (ownerBucketRowCounts cluster rows)[bucket]?.getD 0) → NeverGrows config cluster rows := by
  refine ⟨⟨?_,?_⟩,fun rows factor => neverGrows_of_scaled factor⟩
  · intro sound
    by_contra none
    simp only [not_or,Bool.not_eq_false,Nat.not_le,not_forall] at none
    obtain ⟨on,concentrated,wide,first,mem,second,other,apart⟩ := none
    exact unseenRows_grow wide mem other apart on concentrated (sound _)
  · intro calm rows
    by_cases one : ∀ first ∈ cluster.workers, ∀ second ∈ cluster.workers, first = second
    · apply neverGrows_of_scaled cluster.workers.length
      intro bucket inside
      cases listed : cluster.workers with
      | nil => simp [bucketTotal,listed]
      | cons endpoint rest =>
        obtain ⟨owner,mem,is_⟩ := ownerEndpoint_mem (by simp [listed])
          (Nat.ne_zero_of_lt inside) bucket
        have same := eq_replicate_of_mem fun other there => one other there owner mem
        rw [← listed,bucketTotal,same]
        simp [ownerBucketRowCounts,inside,is_]
    · intro counts m sampled some_ declined chosen shrunk
      obtain ⟨on,concentrated,wide,_⟩ := shrunk_of_declined some_ declined (chosen.symm ▸ shrunk)
      rcases calm with off | off | narrow | same
      · exact absurd on (by simp [off])
      · exact absurd concentrated (by simp [off])
      · omega
      · exact absurd same one

/-- Of two buckets that reader 0 reads, the owner of the second has no rows. -/
theorem unseen_rows_grow_reader : ¬ NeverGrows {} ⟨["a","b"],3⟩ (unseenRows {} ⟨["a","b"],3⟩) := by
  have listed : "a" ∈ ["a","b"] ∧ "b" ∈ ["a","b"] := by simp
  exact unseenRows_grow (by decide) listed.1 listed.2 (by decide) rfl rfl

end Oxidant.Shuffle
