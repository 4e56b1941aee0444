import Oxidant.Kafka.Budgets

/-! Whether rate-limited planning moves on: which partitions a planned range includes, and how the
counter that rotates the window goes from call to call. -/
namespace Oxidant.Kafka
open List hiding after range
open Lib Streaming Act

namespace KafkaSource
variable (options : KafkaOptions)

def observe : Method (PartitionMap Int) := do
  assign options
  let self ← Act.get
  latestOffsets self.partitionClients.keys

section Planning
variable (self : KafkaSource) (ends : PartitionMap Int)

def lags : PartitionMap Nat :=
  self.partitionClients.keys.foldl (fun lag tp =>
    let «from» := self.offsets[tp]?.getD 0
    lag.insert tp (ends[tp]?.getD «from» - «from»).toNat) ∅

def budgets : PartitionMap Nat :=
  partitionBudgets options self.roundRobin self.partitionClients.keys (self.lags ends)

def planned : BatchRange :=
  if self.partitionClients.keys.isEmpty then {}
  else self.partitionClients.keys.foldl (self.addSlice ends (self.budgets options ends)) {source := "kafka"}

def advanced : KafkaSource :=
  if (self.planned options ends).isEmpty then self
  else {self with roundRobin := (self.roundRobin + 1) % 2^64}

end Planning

lemma planBatch_exec :
    (planBatch options).exec Broker.reply () self wire =
      match (observe options).exec Broker.reply () self wire with
      | ((.ok ends,seen),final) => ((.ok (seen.planned options ends),seen.advanced options ends),final)
      | ((.error e,seen),final) => ((.error e,seen),final) := by
  unfold planBatch observe
  rw [exec_bind,exec_bind]
  rcases (assign options).exec Broker.reply () self wire with ⟨⟨_ | _,seen⟩,between⟩
  · rfl
  dsimp only
  rw [exec_get_bind,exec_get_bind]
  have reads := Prog.exec_ensures _ _ (@latestOffsets_ensures seen between options seen.partitionClients.keys) ()
  split
  · next none =>
    have keys : seen.partitionClients.keys = [] := isEmpty_iff.mp none
    have planned : seen.planned options ∅ = {} := if_pos none
    rw [keys]
    refine Eq.trans ?_ (show _ = ((Except.ok (seen.planned options ∅),seen.advanced options ∅),between) from rfl).symm
    rw [advanced,planned]
    rfl
  · next some =>
    rw [exec_bind]
    rw [← Act.exec] at reads
    rcases found : (latestOffsets seen.partitionClients.keys).exec Broker.reply () seen between with
      ⟨⟨_ | ends,after⟩,final⟩
    · rfl
    · rw [found] at reads
      obtain ⟨rfl,_⟩ := reads
      dsimp only
      have planned : after.planned options ends = after.partitionClients.keys.foldl
        (after.addSlice ends (after.budgets options ends)) {source := "kafka"} := if_neg some
      rw [advanced,planned]
      unfold budgets lags
      generalize List.foldl (addSlice _ _ after) _ _ = range
      cases range.isEmpty <;> rfl

end KafkaSource

def Waiting (self : KafkaSource) (ends : PartitionMap Int) (tp : TopicPartition) : Prop :=
  self.offsets[tp]?.getD 0 < ends[tp]?.getD (self.offsets[tp]?.getD 0)

/-- Of the partitions in their order, a budget's worth is served from the counter's place on. -/
def InWindow (budget : Nat) (self : KafkaSource) (tp : TopicPartition) : Prop :=
  let partitions := self.partitionClients.keys
  ∃ i, (tp,i) ∈ partitions.zipIdx ∧ rotated partitions.length (self.roundRobin % partitions.length) i < budget

def Reached (budget : Nat) (self : KafkaSource) (tp : TopicPartition) : Prop :=
  self.partitionClients.keys.length ≤ budget ∨ InWindow budget self tp

def Served (budget : Nat) (self : KafkaSource) (ends : PartitionMap Int) : Prop :=
  ∃ tp ∈ self.partitionClients, Waiting self ends tp ∧ Reached budget self tp

section Ranges
open KafkaSource
lemma foldl_insert_display (chosen : TopicPartition → Bool) (value : TopicPartition → Int)
    (partitions : List TopicPartition) (entries : BTreeMap Int) (tp) :
    (partitions.foldl (fun entries tp =>
      if chosen tp then entries.insert tp.display (value tp) else entries) entries)[tp.display]? =
      if tp ∈ partitions ∧ chosen tp = true then some (value tp) else entries[tp.display]? := by
  induction partitions generalizing entries with
  | nil => simp
  | cons first rest ih =>
    rw [foldl_cons,ih]
    by_cases later : tp ∈ rest ∧ chosen tp = true
    · rw [if_pos later,if_pos ⟨mem_cons_of_mem _ later.1,later.2⟩]
    · rw [if_neg later]
      by_cases same : first = tp
      · subst same
        cases chosen first with
        | false => simp
        | true => simp
      · have others : tp ∈ first::rest ∧ chosen tp = true ↔ tp ∈ rest ∧ chosen tp = true := by simp [Ne.symm same]
        rw [if_neg (others.not.mpr later)]
        split
        · rw [display_getElem?_insert,if_neg same]
        · rfl

def picks (self : KafkaSource) (ends : PartitionMap Int) (budgets : PartitionMap Nat) (tp : TopicPartition) : Bool :=
  decide ((self.slice ends budgets tp).1 < (self.slice ends budgets tp).2)

lemma foldl_addSlice (budgets) (partitions : List TopicPartition) (range) :
    let made := partitions.foldl (self.addSlice ends budgets) range
    made.items = range.items ∧
    made.end = partitions.foldl (fun entries tp => if picks self ends budgets tp
      then entries.insert tp.display (self.slice ends budgets tp).2 else entries) range.end ∧
    made.start = partitions.foldl (fun entries tp => if picks self ends budgets tp
      then entries.insert tp.display (self.slice ends budgets tp).1 else entries) range.start := by
  induction partitions generalizing range with
  | nil => simp
  | cons first rest ih =>
    have told := ih (self.addSlice ends budgets range first)
    have step : self.addSlice ends budgets range first =
        if (self.slice ends budgets first).1 < (self.slice ends budgets first).2
        then {range with
          start := range.start.insert first.display (self.slice ends budgets first).1
          «end» := range.end.insert first.display (self.slice ends budgets first).2}
        else range := by
      unfold addSlice
      dsimp only
      split
      · rw [if_neg (by omega)]
      · rw [if_pos (by omega)]
    simp only [foldl_cons]
    rw [step] at told ⊢
    by_cases some : (self.slice ends budgets first).1 < (self.slice ends budgets first).2
    · simpa [picks,some] using told
    · simpa [picks,some] using told

lemma mem_foldl_insert_display {chosen : TopicPartition → Bool} {value : TopicPartition → Int}
    {partitions : List TopicPartition} {entries : BTreeMap Int}
    (mem : key ∈ partitions.foldl (fun entries tp =>
      if chosen tp then entries.insert tp.display (value tp) else entries) entries) :
    key ∈ entries ∨ ∃ tp ∈ partitions, chosen tp = true ∧ key = tp.display := by
  induction partitions generalizing entries with
  | nil => exact .inl mem
  | cons first rest ih =>
    rcases ih mem with before | ⟨tp,among,picked,same⟩
    · dsimp only at before
      split at before
      · next picked =>
        rw [Std.ExtTreeMap.mem_insert,Std.LawfulEqCmp.compare_eq_iff_eq] at before
        rcases before with rfl | before
        · exact .inr ⟨first,mem_cons_self,picked,rfl⟩
        · exact .inl before
      · exact .inl before
    · exact .inr ⟨tp,mem_cons_of_mem _ among,picked,same⟩

structure Words (source : KafkaSource) (ends : PartitionMap Int) : Prop where
  starts : ∀ (tp : TopicPartition) (offset : Int), source.offsets[tp]? = some offset → I64.min ≤ offset
  stops : ∀ (tp : TopicPartition) (offset : Int), ends[tp]? = some offset → offset ≤ I64.max

lemma picks_iff (words : Words self ends) (budgets) :
    picks self ends budgets tp = true ↔ Waiting self ends tp ∧ 0 < budgets[tp]?.getD 0 := by
  have low : I64.min ≤ self.offsets[tp]?.getD 0 := by
    cases found : self.offsets[tp]? with
    | none => decide
    | some offset => exact words.starts tp offset found
  unfold picks Waiting slice
  rw [decide_eq_true_iff]
  cases found : ends[tp]? with
  | none => simp
  | some stop =>
    have high := words.stops tp stop found
    simp only [Option.getD_some,I64.saturate]
    unfold I64.min I64.max at *
    split
    · omega
    · split <;> omega

variable {options : KafkaOptions} (limited : options.maxOffsetsPerTrigger = some budget)
include limited

lemma budgets_some_iff (ends) (mem : tp ∈ self.partitionClients) :
    0 < (self.budgets options ends)[tp]?.getD 0 ↔ Reached budget self tp := by
  have distinct : self.partitionClients.keys.Nodup := Std.ExtTreeMap.nodup_keys
  have among : tp ∈ self.partitionClients.keys := Std.ExtTreeMap.mem_keys.mpr mem
  obtain ⟨i,inside,place⟩ := exists_place among
  unfold budgets Reached
  by_cases few : budget < self.partitionClients.keys.length
  · rw [partitionBudgets_window limited few,spread_getElem? distinct place,Option.getD_some,windowShare]
    constructor
    · intro positive
      refine .inr ⟨i,place,?_⟩
      by_contra outside
      rw [if_neg outside] at positive
      omega
    · rintro (enough | ⟨j,place',within⟩)
      · omega
      · have same : j = i := by
          rw [mem_zipIdx_iff_getElem?] at place place'
          exact ((getElem?_inj inside distinct).mp (place.trans place'.symm)).symm
        rw [← same,if_pos within]
        exact Nat.one_pos
  · have enough : self.partitionClients.keys.length ≤ budget := by omega
    rw [partitionBudgets_full limited (ne_nil_of_mem among) enough,spread_getElem? distinct place]
    simp only [enough,true_or,iff_true,Option.getD_some]
    rw [fullShare,add_assoc]
    exact lt_of_lt_of_le (floorShare_pos tp) (Nat.le_add_right _ _)

lemma mem_planned_iff (words : Words self ends) (mem : tp ∈ self.partitionClients) :
    tp.display ∈ (self.planned options ends).end ↔ Waiting self ends tp ∧ Reached budget self tp := by
  have among : tp ∈ self.partitionClients.keys := Std.ExtTreeMap.mem_keys.mpr mem
  unfold planned
  rw [if_neg (by simpa using ne_nil_of_mem among)]
  obtain ⟨_,stops,_⟩ := @foldl_addSlice self ends (self.budgets options ends)
    self.partitionClients.keys {source := "kafka"}
  rw [stops,Std.ExtTreeMap.mem_iff_isSome_getElem?,foldl_insert_display,
    ← budgets_some_iff limited ends mem,← picks_iff words]
  by_cases chosen : picks self ends (self.budgets options ends) tp = true
  · simp [chosen,among]
  · simp [chosen]

lemma planned_some_iff (words : Words self ends) :
    (self.planned options ends).isEmpty = false ↔ Served budget self ends := by
  obtain ⟨items,stops,starts⟩ := @foldl_addSlice self ends (self.budgets options ends)
    self.partitionClients.keys {source := "kafka"}
  constructor
  · intro some
    have keys : ¬ self.partitionClients.keys.isEmpty = true := by
      intro none
      rw [planned,if_pos none] at some
      cases some
    rw [planned,if_neg keys] at some
    rw [BatchRange.isEmpty,items] at some
    generalize self.partitionClients.keys.foldl (self.addSlice ends (self.budgets options ends))
      {source := "kafka"} = made at stops some
    obtain ⟨key,stop,found,_⟩ : ∃ key, ∃ stop : Int, made.end[key]? = Option.some stop ∧
        made.start[key]?.getD 0 < stop := by simpa using some
    have mem : key ∈ made.end := Std.ExtTreeMap.mem_iff_isSome_getElem?.mpr (by rw [found]; rfl)
    rw [stops] at mem
    rcases mem_foldl_insert_display mem with none | ⟨tp,among,chosen,rfl⟩
    · simp at none
    · have client : tp ∈ self.partitionClients := Std.ExtTreeMap.mem_keys.mp among
      rw [picks_iff words,budgets_some_iff limited ends client] at chosen
      exact ⟨tp,client,chosen⟩
  · rintro ⟨tp,client,served⟩
    have among : tp ∈ self.partitionClients.keys := Std.ExtTreeMap.mem_keys.mpr client
    rw [← budgets_some_iff limited ends client,← picks_iff words] at served
    rw [planned,if_neg (by simpa using ne_nil_of_mem among)]
    have stop := foldl_insert_display (picks self ends (self.budgets options ends))
      (fun tp => (self.slice ends (self.budgets options ends) tp).2)
      self.partitionClients.keys ∅ tp
    have start := foldl_insert_display (picks self ends (self.budgets options ends))
      (fun tp => (self.slice ends (self.budgets options ends) tp).1)
      self.partitionClients.keys ∅ tp
    rw [if_pos ⟨among,served⟩] at stop start
    rw [← starts] at start
    rw [← stops] at stop
    rw [← Bool.not_eq_true]
    intro none
    rw [BatchRange.isEmpty,Bool.and_eq_true] at none
    have past := all_eq_true.mp none.2 _ (Std.ExtTreeMap.mem_toList_iff_getElem?_eq_some.mpr stop)
    rw [decide_eq_true_iff,start,Option.getD_some] at past
    exact absurd (of_decide_eq_true served) (by omega)

end Ranges

/-- What assigning leaves as it was: the counter, and the partitions already assigned. -/
structure Keeps (source after : KafkaSource) : Prop where
  roundRobin : after.roundRobin = source.roundRobin
  clients : ∀ tp ∈ source.partitionClients, tp ∈ after.partitionClients
  offsets : ∀ tp ∈ source.partitionClients, after.offsets[tp]? = source.offsets[tp]?

lemma Keeps.refl (self) : Keeps self self := ⟨rfl,fun _ => id,fun _ _ => rfl⟩

lemma Keeps.trans (one : Keeps self middle) (other : Keeps middle after) : Keeps self after where
  roundRobin := other.roundRobin.trans one.roundRobin
  clients tp mem := other.clients tp (one.clients tp mem)
  offsets tp mem := (other.offsets tp (one.clients tp mem)).trans (one.offsets tp mem)

section Assigning
open KafkaSource
variable (options : KafkaOptions)

lemma connectClient_keeps :
    (connectClient options).Ensures Broker.reply Anywhere (fun _ after _ => Keeps self after) self wire := by
  unfold connectClient
  rw [ensures_get_bind]
  split
  · exact .refl self
  · rw [ensures_bind,ensures_request]
    refine ⟨trivial,fun choice => ?_⟩
    dsimp only
    split
    · exact .refl self
    · exact ⟨rfl,fun _ => id,fun _ _ => rfl⟩

lemma assignPartition_keeps :
    (assignPartition options firstAssignment tp).Ensures Broker.reply Anywhere (fun _ after _ => Keeps self after)
      self wire := by
  unfold assignPartition
  rw [ensures_get_bind]
  split
  · exact .refl self
  next absent =>
  have new : tp ∉ self.partitionClients := by
    rwa [Bool.not_eq_true,← Bool.not_eq_true,Std.ExtTreeMap.contains_iff_mem] at absent
  have client {offsets : PartitionMap Int}
      (kept : ∀ other ∈ self.partitionClients, offsets[other]? = self.offsets[other]?) :
      Keeps self {self with offsets,partitionClients := self.partitionClients.insert tp ()} :=
    ⟨rfl,fun other mem => Std.ExtTreeMap.mem_insert.mpr (.inr mem),kept⟩
  rw [ensures_bind,ensures_request]
  refine ⟨trivial,fun choice => ?_⟩
  dsimp only
  split
  · exact .refl self
  split
  · apply ensures_then (resolveStartOffset_ensures tp firstAssignment)
    rintro (e | start) after final ⟨rfl,_⟩
    · exact .refl after
    · refine ⟨trivial,fun choice => client fun other mem => ?_⟩
      rw [getElem?_insert,if_neg]
      rintro rfl
      exact new mem
  · exact client fun _ _ => rfl

lemma assignPartitions_keeps :
    (assignPartitions options firstAssignment tps).Ensures Broker.reply Anywhere (fun _ after _ => Keeps self after)
      self wire := by
  induction tps generalizing self wire with
  | nil => exact .refl self
  | cons tp rest ih =>
    apply ensures_then (assignPartition_keeps options)
    rintro (e | _) middle between kept
    · exact kept
    · exact ensures_mono ih fun _ _ _ more => kept.trans more

lemma assignTopics_keeps :
    (assignTopics options firstAssignment topics wants).Ensures Broker.reply Anywhere
      (fun _ after _ => Keeps self after) self wire := by
  induction wants generalizing self wire with
  | nil => exact .refl self
  | cons want rest ih =>
    unfold assignTopics
    split
    · exact .refl self
    · apply ensures_then (assignPartitions_keeps options)
      rintro (e | _) middle between kept
      · exact kept
      · exact ensures_mono ih fun _ _ _ more => kept.trans more

lemma assign_keeps :
    (assign options).Ensures Broker.reply Anywhere (fun _ after _ => Keeps self after) self wire := by
  unfold assign
  rw [ensures_get_bind,ensures_bind,ensures_request]
  refine ⟨trivial,fun choice => ?_⟩
  dsimp only
  split
  · exact .refl self
  apply ensures_then (connectClient_keeps options)
  rintro (e | _) middle between kept
  · exact kept
  rw [ensures_bind,ensures_request]
  refine ⟨trivial,fun choice => ?_⟩
  dsimp only
  split
  · exact kept
  apply ensures_then (assignTopics_keeps options)
  rintro (e | _) after final more
  · exact kept.trans more
  · have whole := kept.trans more
    exact ⟨whole.roundRobin,whole.clients,whole.offsets⟩

lemma observe_keeps :
    (observe options).Ensures Broker.reply Anywhere (fun _ after _ => Keeps self after) self wire := by
  apply ensures_then (assign_keeps options)
  rintro (e | _) middle between kept
  · exact kept
  rw [ensures_get_bind]
  apply ensures_mono (latestOffsets_ensures options _)
  rintro result after final ⟨rfl,_⟩
  exact kept

lemma pollRange_roundRobin :
    (pollRange options range).Ensures Broker.reply Anywhere (fun _ after _ => after.roundRobin = self.roundRobin)
      self wire := by
  unfold pollRange
  split
  · rfl
  split
  · rfl
  split
  · rw [ensures_bind]
    apply ensures_then (assign_keeps options)
    rintro (e | _) middle between kept
    · exact kept.roundRobin
    dsimp only
    rw [ensures_get_bind,ensures_bind,ensures_raise]
    split
    · apply ensures_then (fetchAll_ensures options _)
      rintro (e | records) after final ⟨rfl,_⟩
      · exact kept.roundRobin
      dsimp only
      rw [ensures_pure]
      dsimp only
      rw [ensures_bind,ensures_modify]
      dsimp only
      split <;> exact kept.roundRobin
    · exact kept.roundRobin
  · rfl

end Assigning

/-- Consecutive calls of `plan_batch`: the ends each read, the source as it divided the budget, and
the range. -/
structure Planning (options : KafkaOptions) (partitions : List TopicPartition)
    (state after : Nat → State) (input : Nat → List Choice) (seen : Nat → KafkaSource)
    (ends : Nat → PartitionMap Int) (range : Nat → BatchRange) : Prop where
  reads : ∀ k < partitions.length,(call (KafkaSource.observe options) (input k) (state k)).1 =
    .ok (ends k)
  sees : ∀ k < partitions.length,(call (KafkaSource.observe options) (input k) (state k)).2.self =
    seen k
  assigned : ∀ k < partitions.length,(seen k).partitionClients.keys = partitions
  plans : ∀ k < partitions.length,call (KafkaSource.planBatch options) (input k) (state k) =
    (.ok (range k),after k)
  words : ∀ k < partitions.length,Words (seen k) (ends k)

namespace Planning
variable (planning : Planning options partitions state after input seen ends range) (inside : k < partitions.length)
include planning inside

lemma range_eq :
    range k = (seen k).planned options (ends k) ∧ (after k).self = (seen k).advanced options (ends k) := by
  have plans := planning.plans k inside
  have reads := planning.reads k inside
  have sees := planning.sees k inside
  unfold call at plans reads sees
  rw [KafkaSource.planBatch_exec] at plans
  generalize (KafkaSource.observe options).exec Broker.reply () (state k).self
    ⟨input k,(state k).broker⟩ = done at plans reads sees
  obtain ⟨⟨_ | _,_⟩,_⟩ := done
  · cases reads
  · cases reads
    subst sees
    simp only [Prod.mk.injEq,Except.ok.injEq] at plans
    obtain ⟨planned,moved⟩ := plans
    exact ⟨planned.symm,by rw [← moved]⟩

lemma keeps : Keeps (state k).self (seen k) := by
  obtain ⟨_,kept⟩ := call_ensures (KafkaSource.observe options) (input k) (state k) (observe_keeps options)
  rwa [planning.sees k inside] at kept

lemma mem_clients : tp ∈ (seen k).partitionClients ↔ tp ∈ partitions := by
  rw [← planning.assigned k inside,Std.ExtTreeMap.mem_keys]

end Planning

section Progress
variable {budget : Nat} {partitions : List TopicPartition} {state after : Nat → State}
  {input : Nat → List Choice} {seen : Nat → KafkaSource} {ends : Nat → PartitionMap Int}
  {range : Nat → BatchRange}

lemma served_congr {self other : KafkaSource} {ends : PartitionMap Int}
    (keys : self.partitionClients.keys = other.partitionClients.keys)
    (rotation : self.roundRobin = other.roundRobin)
    (offsets : ∀ tp ∈ self.partitionClients, self.offsets[tp]? = other.offsets[tp]?) :
    Served budget self ends ↔ Served budget other ends := by
  have clients (tp : TopicPartition) : tp ∈ self.partitionClients ↔ tp ∈ other.partitionClients := by
    rw [← Std.ExtTreeMap.mem_keys,keys,Std.ExtTreeMap.mem_keys]
  unfold Served Reached InWindow Waiting
  rw [keys,rotation]
  constructor
  · rintro ⟨tp,mem,waiting,reached⟩
    rw [offsets tp mem] at waiting
    exact ⟨tp,(clients tp).mp mem,waiting,reached⟩
  · rintro ⟨tp,mem,waiting,reached⟩
    have mem := (clients tp).mpr mem
    rw [← offsets tp mem] at waiting
    exact ⟨tp,mem,waiting,reached⟩

variable (limited : options.maxOffsetsPerTrigger = some budget)
  (planning : Planning options partitions state after input seen ends range)
include limited planning

lemma unserved_stays (follows : ∀ k < partitions.length, state (k + 1) = after k)
    (unchanged : ∀ k < partitions.length, ends k = ends 0)
    (none : ¬ Served budget (seen 0) (ends 0)) (inside : k < partitions.length) :
    ¬ Served budget (seen k) (ends k) := by
  induction k with
  | zero => exact none
  | succ k ih =>
    have before : k < partitions.length := by omega
    have idle := ih before
    obtain ⟨planned,advanced⟩ := planning.range_eq before
    rw [KafkaSource.advanced,if_pos] at advanced
    · have kept := planning.keeps inside
      rw [follows k before,advanced] at kept
      rw [unchanged _ inside,← unchanged k before]
      intro served
      refine idle ((served_congr ?_ kept.roundRobin.symm ?_).mpr served)
      · rw [planning.assigned k before,planning.assigned _ inside]
      · intro tp mem
        exact (kept.offsets tp mem).symm
    · rw [← Bool.not_eq_false,planned_some_iff limited (planning.words k before)]
      exact idle

lemma counter_turns {polls : Nat → List Choice}
    (follows : ∀ k < partitions.length,
      state (k + 1) = (call (KafkaSource.pollRange options (range k)) (polls k) (after k)).2)
    (served : ∀ k < partitions.length, Served budget (seen k) (ends k))
    (unwrapped : Unwrapped (seen 0).roundRobin partitions.length)
    (inside : k < partitions.length) :
    (seen k).roundRobin % partitions.length =
      rotation (seen 0).roundRobin k % partitions.length := by
  have turns : k = 0 ∨ (seen k).roundRobin = rotation (seen 0).roundRobin k := by
    induction k with
    | zero => exact .inl rfl
    | succ k ih =>
      have before : k < partitions.length := by omega
      obtain ⟨_,advanced⟩ := planning.range_eq before
      have some := (planned_some_iff limited (planning.words k before)).mpr (served k before)
      rw [KafkaSource.advanced,if_neg (by simp [some])] at advanced
      obtain ⟨_,polled⟩ := call_ensures (KafkaSource.pollRange options (range k)) (polls k) (after k)
        (pollRange_roundRobin options)
      have kept := (planning.keeps inside).roundRobin
      rw [follows k before,polled,advanced] at kept
      right
      rw [kept]
      unfold rotation
      rcases ih before with rfl | same
      · rfl
      · rw [same,rotation,Nat.mod_add_mod,add_assoc]
  rcases turns with rfl | same
  · rw [rotation_mod unwrapped inside]
    rfl
  · rw [same]

/-- Planning moves on exactly if a partition with something to read is within reach of the budget.
Where that is so throughout a round, no partition waits through all of it. -/
theorem rate_limited_progress (some' : 1 ≤ budget) :
    ((∀ k < partitions.length, state (k + 1) = after k) →
      (∀ k < partitions.length, ends k = ends 0) → 0 < partitions.length →
      ((∃ k < partitions.length, (range k).isEmpty = false) ↔ Served budget (seen 0) (ends 0))) ∧
    ∀ polls : Nat → List Choice, (∀ k < partitions.length,
        state (k + 1) = (call (KafkaSource.pollRange options (range k)) (polls k) (after k)).2) →
      (∀ k < partitions.length, Served budget (seen k) (ends k)) →
      Unwrapped (seen 0).roundRobin partitions.length →
      ∀ tp ∈ partitions, (∀ k < partitions.length, Waiting (seen k) (ends k) tp) →
        ∃ k < partitions.length, tp.display ∈ (range k).end := by
  constructor
  · intro follows unchanged some
    constructor
    · rintro ⟨k,inside,planned⟩
      by_contra none
      rw [(planning.range_eq inside).1,planned_some_iff limited (planning.words k inside)] at planned
      exact unserved_stays limited planning follows unchanged none inside planned
    · intro served
      refine ⟨0,some,?_⟩
      rw [(planning.range_eq some).1,planned_some_iff limited (planning.words 0 some)]
      exact served
  · intro polls follows served unwrapped tp mem waiting
    have included {k : Nat} (inside : k < partitions.length) (reached : Reached budget (seen k) tp) :
        tp.display ∈ (range k).end := by
      rw [(planning.range_eq inside).1,mem_planned_iff limited (planning.words k inside)
        ((planning.mem_clients inside).mpr mem)]
      exact ⟨waiting k inside,reached⟩
    by_cases few : budget < partitions.length
    · obtain ⟨i,place,within⟩ := exists_place mem
      have total := sum_turns place few unwrapped
      obtain ⟨turn,inside,share⟩ : ∃ turn < partitions.length,
          windowShare budget (rotation (seen 0).roundRobin turn) partitions i ≠ 0 := by
        by_contra none
        push Not at none
        rw [sum_eq_zero] at total
        · omega
        · intro value listed
          obtain ⟨turn,among,rfl⟩ := mem_map.mp listed
          exact none turn (mem_range.mp among)
      refine ⟨turn,inside,included inside (.inr ⟨i,?_,?_⟩)⟩
      · rw [planning.assigned turn inside]
        exact within
      · rw [planning.assigned turn inside,
          counter_turns limited planning follows served unwrapped inside]
        by_contra outside
        exact share (if_neg outside)
    · have some : 0 < partitions.length := length_pos_of_mem mem
      refine ⟨0,some,included some (.inl ?_)⟩
      rw [planning.assigned 0 some]
      omega

end Progress
namespace Sample

def twoRead (first second : Int) : State where
  self := {
    offsets := (∅ : PartitionMap Int).insert ⟨"t",0⟩ first |>.insert ⟨"t",1⟩ second
    partitionClients := (∅ : PartitionMap Unit).insert ⟨"t",0⟩ () |>.insert ⟨"t",1⟩ ()
    assigned := true}
  broker := {topics := [⟨"t",[0,1]⟩],log := fun _ => {latest := 5}}

def quiet : List Choice := List.replicate 3 {}

def plan (state : State) : Except Error BatchRange × State :=
  call (KafkaSource.planBatch (limited 1)) quiet state

def planRange (state : State) : BatchRange := (plan state).1.toOption.getD {}

def turns : Nat → State
  | 0 => twoRead 0 0
  | k+1 => (call (KafkaSource.pollRange (limited 1) (planRange (turns k))) [] (plan (turns k)).2).2

def seenAt (k : Nat) : KafkaSource :=
  (call (KafkaSource.observe (limited 1)) quiet (turns k)).2.self

def endsAt (k : Nat) : PartitionMap Int :=
  (call (KafkaSource.observe (limited 1)) quiet (turns k)).1.toOption.getD ∅

lemma offsets_small (inside : k < 2) :
    (seenAt k).offsets.toList.all (fun entry => decide (I64.min ≤ entry.2)) = true := by
  match k,inside with
  | 0,_ => decide
  | 1,_ => decide

lemma ends_small (inside : k < 2) : (endsAt k).toList.all (fun entry => decide (entry.2 ≤ I64.max)) = true := by
  match k,inside with
  | 0,_ => decide
  | 1,_ => decide

lemma turns_planning :
    Planning (limited 1) [⟨"t",0⟩,⟨"t",1⟩] turns (fun k => (plan (turns k)).2) (fun _ => quiet) seenAt endsAt
      (fun k => planRange (turns k)) where
  reads k inside := by
    match k,inside with
    | 0,_ => rfl
    | 1,_ => rfl
  sees k _ := rfl
  assigned k inside := by
    match k,inside with
    | 0,_ => decide
    | 1,_ => decide
  plans k inside := by
    match k,inside with
    | 0,_ => rfl
    | 1,_ => rfl
  words k inside := by
    constructor
    · intro tp offset found
      exact of_decide_eq_true (all_eq_true.mp (offsets_small inside) (tp,offset)
        (Std.ExtTreeMap.mem_toList_iff_getElem?_eq_some.mpr found))
    · intro tp offset found
      exact of_decide_eq_true (all_eq_true.mp (ends_small inside) (tp,offset)
        (Std.ExtTreeMap.mem_toList_iff_getElem?_eq_some.mpr found))

theorem both_served :
    ∃ k < 2, (⟨"t",1⟩ : TopicPartition).display ∈ (planRange (turns k)).end := by
  have progress := (rate_limited_progress rfl turns_planning (by decide)).2 (fun _ => [])
    (fun k _ => (rfl))
  apply progress
  · intro k inside
    match k,inside with
    | 0,_ => exact ⟨⟨"t",0⟩,by decide,by unfold Waiting; decide,.inr ⟨0,by decide,by decide⟩⟩
    | 1,_ => exact ⟨⟨"t",1⟩,by decide,by unfold Waiting; decide,.inr ⟨1,by decide,by decide⟩⟩
  · exact .inl (by decide)
  · decide
  · intro k inside
    match k,inside with
    | 0,_ =>
      unfold Waiting
      decide
    | 1,_ =>
      unfold Waiting
      decide

/-- With the window on a partition that is caught up nothing is planned, and the window stays where
it is. -/
theorem caught_up_window_stalls :
    let state := twoRead 5 0
    state.self.offsets[(⟨"t",1⟩ : TopicPartition)]? = some 0 ∧
    (state.broker.log ⟨"t",1⟩).latest = 5 ∧
    (plan state).1.map BatchRange.isEmpty = .ok true ∧
    (plan (plan state).2).1.map BatchRange.isEmpty = .ok true := by
  decide

end Sample
end Oxidant.Kafka
