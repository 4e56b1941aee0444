import Mathlib.Data.List.Induction
import Oxidant.Kafka.Calls
import Oxidant.Lib.Stretch

/-! Which records a poll returns: the rounds a partition gets, the answers of the broker, and what
is left of the range when the rounds are over. -/
namespace Oxidant.Kafka
open List hiding after count range
open Lib Streaming Act

structure Log.Ordered (log : Log) : Prop where
  ascending : Rising (·.offset) log.records
  below : ∀ record ∈ log.records, record.offset < log.latest

structure Log.Holds (log : Log) (first last : Int) (records : List Record) : Prop where
  ordered : log.Ordered
  given : last ≤ log.latest
  stretch : stretch (·.offset) first last log.records = records

section Arrivals
variable {broker : Broker} {records : List Record}

section
variable (holds : (broker.log tp).Holds first last records)
include holds

lemma Log.Holds.extend (latest : ∀ record ∈ added, record.offset = (broker.log other).latest)
    (one : added.length ≤ 1) : ((broker.extend other added).log tp).Holds first last records := by
  unfold Broker.extend
  dsimp only
  split
  · next same =>
    subst same
    have behind : ∀ record ∈ added, ∀ old ∈ (broker.log tp).records, old.offset < record.offset := by
      intro record mem old listed
      rw [latest record mem]
      exact holds.ordered.below old listed
    constructor
    · constructor
      · refine pairwise_append.mpr ⟨holds.ordered.ascending,?_,?_⟩
        · match added,one with
          | [],_ => exact .nil
          | [record],_ => exact pairwise_singleton _ _
        · intro old listed record mem
          exact behind record mem old listed
      · intro record mem
        rcases mem_append.mp mem with old | new
        · have := holds.ordered.below record old
          dsimp only
          omega
        · have := latest record new
          dsimp only
          omega
    · have := holds.given
      dsimp only
      omega
    · have none : Lib.stretch (·.offset) first last added = [] := by
        unfold Lib.stretch
        rw [filter_eq_nil_iff]
        intro record mem
        have := latest record mem
        have := holds.given
        simp only [Bool.and_eq_true,decide_eq_true_eq]
        omega
      have kept := holds.stretch
      unfold Lib.stretch at kept none ⊢
      rw [filter_append,kept,none,append_nil]
  · exact holds

lemma Log.Holds.arrive (arrival) : ((broker.arrive arrival).log tp).Holds first last records := by
  cases arrival with
  | record other key value timestampMs =>
    exact holds.extend (fun record mem => by rw [mem_singleton.mp mem]) le_rfl
  | marker other => exact holds.extend nofun (Nat.zero_le 1)
  | partition => exact holds
  | topic => exact holds

lemma Log.Holds.arriveAll (arrivals) : ((broker.arriveAll arrivals).log tp).Holds first last records := by
  induction arrivals generalizing broker with
  | nil => exact holds
  | cons arrival rest ih => exact ih (holds.arrive arrival)

end

lemma Log.Holds.reply (holds : (wire.broker.log tp).Holds first last records) (request) :
    ((Broker.reply () wire request).2.broker.log tp).Holds first last records := by
  have arrived := holds.arriveAll (wire.choices.headD Broker.lost).arrivals
  cases request <;> exact arrived

end Arrivals

def recordOf (tp : TopicPartition) (record : Record) : KafkaRecord := ⟨record,tp.topic,tp.partition⟩

def Answering (choices : List Choice) : Prop := ∀ choice ∈ choices, 1 ≤ choice.count

def Taken (fits : Nat → Prop) (tp : TopicPartition) (wanted : List Record) (records : List KafkaRecord) : Prop :=
  ∃ count, fits count ∧ records = (wanted.take count).map (recordOf tp)

section Reading
open KafkaSource
variable {self : KafkaSource}

lemma read_once {log : Log} {next : Int} {wanted : List Record}
    (holds : log.Holds next last wanted) (some : 1 ≤ count) :
    let fetched := (log.records.filter fun record => next ≤ record.offset).take count
    let taken := fetched.takeWhile fun record => record.offset < last
    let after := (taken.getLast?.map fun record => record.offset + 1).getD next
    (fetched = [] → wanted = []) ∧ taken = wanted.take count ∧ next ≤ after ∧
      log.Holds after last (wanted.drop count) := by
  intro fetched taken after
  have read : taken = wanted.take count := by
    have cut := takeWhile_read holds.ordered.ascending next last count
    rw [holds.stretch] at cut
    exact cut
  have reached (record : Record) (mem : record ∈ taken) : next ≤ record.offset := by
    have kept := mem_of_mem_take ((takeWhile_sublist _).subset mem)
    simpa using (mem_filter.mp kept).2
  cases list : wanted with
  | nil =>
    have none : taken = [] := by rw [read,list,take_nil]
    have stays : after = next := by
      change (taken.getLast?.map _).getD next = next
      rw [none]
      rfl
    refine ⟨fun _ => rfl,by rw [none,take_nil],by omega,holds.ordered,holds.given,?_⟩
    rw [stays,holds.stretch,list,drop_nil]
  | cons record rest =>
    have nonempty : taken ≠ [] := by
      rw [read,list]
      simp
      omega
    obtain ⟨front,item,split⟩ : ∃ front item, taken = front ++ [item] :=
      ⟨_,_,(dropLast_concat_getLast nonempty).symm⟩
    have moves : after = item.offset + 1 := by
      change (taken.getLast?.map _).getD next = _
      rw [split,getLast?_append]
      rfl
    have ahead := reached item (by rw [split]; simp)
    refine ⟨fun none => absurd ?_ nonempty,by rw [read,list],by omega,holds.ordered,holds.given,?_⟩
    · change fetched.takeWhile _ = []
      rw [none]
      rfl
    · rw [moves]
      apply stretch_after holds.ordered.ascending
      rw [holds.stretch,← split,read,list,take_append_drop]

lemma Taken.more (add : ∀ more, later more → fits (count + more))
    (rest : Taken later tp (wanted.drop count) records) :
    Taken fits tp wanted ((wanted.take count).map (recordOf tp) ++ records) := by
  obtain ⟨more,enough,rfl⟩ := rest
  exact ⟨count + more,add more enough,by rw [← map_append,take_add]⟩

lemma fetch_answer {next} (answering : Answering wire.choices)
    (answered : (Broker.reply () wire (.fetchRecords tp next)).1 = .ok fetched) :
    ∃ count, 1 ≤ count ∧
      fetched =
        (((Broker.reply () wire (.fetchRecords tp next)).2.broker.log tp).records.filter
            fun record => next ≤ record.offset).take count := by
  obtain ⟨choices,broker⟩ := wire
  cases choices with
  | nil => cases answered
  | cons choice choices =>
    refine ⟨choice.count,answering choice mem_cons_self,?_⟩
    change Broker.refuse choice.error ((broker.arriveAll choice.arrivals).fetchRecords tp next
      choice.count) = .ok fetched at answered
    unfold Broker.refuse Broker.fetchRecords at answered
    split at answered
    · dsimp only at answered
      split at answered
      · cases answered
      · cases answered
        rfl
    · cases answered

def Returns {α : Type} (method : Method α) (post : α → Prop) (self : KafkaSource) (wire : Wire) : Prop :=
  method.Ensures Broker.reply Anywhere (fun result _ _ => ∀ value, result = .ok value → post value) self wire

lemma fetchPartition_reads (rounds : Nat) {next : Int} {wanted : List Record} {wire : Wire}
    (answering : Answering wire.choices) (holds : (wire.broker.log tp).Holds next last wanted) :
    Returns (fetchPartition tp last rounds next) (Taken (rounds ≤ ·) tp wanted) self wire := by
  induction rounds generalizing next wanted wire with
  | zero =>
    rintro _ ⟨⟩
    exact ⟨0,Nat.le_refl 0,by simp⟩
  | succ rounds ih =>
    unfold Returns fetchPartition
    have nothing (none : wanted = []) : Taken (rounds + 1 ≤ ·) tp wanted [] :=
      ⟨rounds + 1,le_rfl,by simp [none]⟩
    split
    · next beyond =>
      rintro _ ⟨⟩
      apply nothing
      rw [← holds.stretch,stretch,filter_eq_nil_iff]
      intro record _
      simp only [Bool.and_eq_true,decide_eq_true_eq]
      omega
    · rw [ensures_bind,ensures_request]
      refine ⟨trivial,fun _ => ?_⟩
      dsimp only
      split
      · rintro _ ⟨⟩
      · next fetched answered =>
        obtain ⟨count,some,rfl⟩ := fetch_answer answering answered
        obtain ⟨ends,read,_,rest⟩ := read_once (holds.reply (.fetchRecords tp next)) some
        split
        · next empty =>
          rintro _ ⟨⟩
          exact nothing (ends (isEmpty_iff.mp empty))
        · refine ensures_step (ih (fun choice mem => answering choice (mem_of_mem_tail mem)) rest) (by simp) ?_
          rintro records _ _ more _ ⟨⟩
          rw [read]
          exact (more records rfl).more fun more enough => by omega

abbrev Plan := TopicPartition × Int × Int

structure Ready (plans : List Plan) (wanted : Plan → List Record) (wire : Wire) : Prop where
  holds : ∀ plan ∈ plans, (wire.broker.log plan.1).Holds plan.2.1 plan.2.2 (wanted plan)
  answering : Answering wire.choices

lemma ready_ensures (ready : Ready plans wanted wire) (method : Method α) :
    method.Ensures Broker.reply Anywhere (fun _ _ final => Ready plans wanted final) self wire :=
  Prog.ensures_keeps _ (fun _ _ op held => ⟨fun plan mem => (held.holds plan mem).reply op,
    fun choice mem => held.answering choice (mem_of_mem_tail mem)⟩) _ _ ready

def Gathered (fits : Nat → Prop) (plans : List Plan) (wanted : Plan → List Record)
    (records : List KafkaRecord) : Prop :=
  ∃ parts, records = parts.flatten ∧ List.Forall₂ (fun plan => Taken fits plan.1 (wanted plan)) plans parts

lemma Gathered.cons (taken : Taken fits plan.1 (wanted plan) part) (rest : Gathered fits plans wanted others) :
    Gathered fits (plan::plans) wanted (part ++ others) := by
  obtain ⟨parts,rfl,each⟩ := rest
  exact ⟨part::parts,rfl,.cons taken each⟩

lemma fetchAll_reads {wire : Wire} (ready : Ready plans wanted wire) :
    Returns (fetchAll plans) (Gathered (maxFetchRounds ≤ ·) plans wanted) self wire := by
  induction plans generalizing self wire with
  | nil =>
    rintro _ ⟨⟩
    exact ⟨[],rfl,.nil⟩
  | cons plan plans ih =>
    obtain ⟨tp,first,last⟩ := plan
    have reads := @fetchPartition_reads self tp last maxFetchRounds first _ wire ready.answering
      (ready.holds _ mem_cons_self)
    refine ensures_step (ensures_and reads (ready_ensures ready _)) nofun ?_
    rintro part after between ⟨read,later⟩
    have rest : Ready plans wanted between :=
      ⟨fun other mem => later.holds other (mem_cons_of_mem _ mem),later.answering⟩
    refine ensures_step (ih rest) nofun ?_
    rintro others _ _ gathered _ ⟨⟩
    exact .cons (read part rfl) (gathered others rfl)

end Reading

def plansOf (range : BatchRange) : List Plan :=
  range.end.toList.filterMap fun (key,stop) =>
    (parseTopicPartition key).bind fun tp =>
      let start := range.start[key]?.getD 0
      if stop ≤ start then none else some (tp,start,stop)

section Plans
lemma fetchPlans_eq (self : KafkaSource) :
    ∃ e, self.fetchPlans range =
        if (plansOf range).all (self.partitionClients.contains ·.1) then .ok (plansOf range) else .error e := by
  unfold KafkaSource.fetchPlans plansOf
  generalize range.end.toList = entries
  induction entries using List.reverseRecOn with
  | nil => exact ⟨.io "",rfl⟩
  | append_singleton entries entry ih =>
    obtain ⟨key,stop⟩ := entry
    obtain ⟨e,same⟩ := ih
    rw [foldlM_append,same,filterMap_append,all_append,filterMap_cons]
    split
    · next all =>
      rw [all,Bool.true_and]
      simp only [bind,Except.bind,foldlM_cons,foldlM_nil]
      cases parseTopicPartition key with
      | none => exact ⟨e,by simp; rfl⟩
      | some tp =>
        by_cases empty : stop ≤ range.start[key]?.getD 0
        · exact ⟨e,by simp [empty]; rfl⟩
        · simp only [if_neg empty]
          by_cases assigned : self.partitionClients.contains tp = true
          · exact ⟨e,by simp [assigned]; rfl⟩
          · exact ⟨_,by simp [assigned]; rfl⟩
    · next missing =>
      rw [Bool.not_eq_true] at missing
      rw [missing]
      exact ⟨e,rfl⟩

lemma mem_plansOf (named : Named range.end) :
    (tp,start,stop) ∈ plansOf range ↔ spanOf tp range = some (start,stop) ∧ start < stop := by
  unfold plansOf spanOf
  rw [mem_filterMap]
  constructor
  · rintro ⟨⟨key,last⟩,listed,found⟩
    have there := Std.ExtTreeMap.mem_toList_iff_getElem?_eq_some.mp listed
    obtain ⟨other,rfl⟩ := named key (Std.ExtTreeMap.mem_iff_isSome_getElem?.mpr (by rw [there]; rfl))
    dsimp only at found
    rw [parse_display,Option.bind_some] at found
    split at found
    · cases found
    · next full =>
      cases found
      rw [there]
      exact ⟨rfl,by omega⟩
  · rintro ⟨span,full⟩
    cases there : range.end[tp.display]? with
    | none =>
      rw [there] at span
      cases span
    | some last =>
      rw [there] at span
      cases span
      refine ⟨(tp.display,stop),Std.ExtTreeMap.mem_toList_iff_getElem?_eq_some.mpr there,?_⟩
      dsimp only
      rw [parse_display,Option.bind_some]
      exact if_neg (by omega)

lemma plansOf_distinct (named : Named range.end) : ((plansOf range).map Prod.fst).Nodup := by
  rw [List.Nodup,pairwise_map,plansOf,pairwise_filterMap]
  have keys : range.end.toList.Pairwise fun one other => one.1 ≠ other.1 :=
    Std.ExtTreeMap.distinct_keys_toList.imp fun apart same => apart (by rw [same]; exact Std.ReflCmp.compare_self)
  apply keys.imp_of_mem
  rintro ⟨key,last⟩ ⟨key',last'⟩ listed listed' apart ⟨tp,_⟩ found ⟨tp',_⟩ found'
  have place {key : String} {last : Int} {plan : Plan} (listed : (key,last) ∈ range.end.toList)
      (found : (parseTopicPartition key).bind (fun tp =>
        if last ≤ range.start[key]?.getD 0 then none else some (tp,range.start[key]?.getD 0,last)) =
        some plan) : key = plan.1.display := by
    have there := Std.ExtTreeMap.mem_toList_iff_getElem?_eq_some.mp listed
    obtain ⟨other,rfl⟩ := named key (Std.ExtTreeMap.mem_iff_isSome_getElem?.mpr (by rw [there]; rfl))
    rw [parse_display,Option.bind_some] at found
    split at found
    · cases found
    · cases found
      rfl
  intro same
  apply apart
  rw [place listed found,place listed' found']
  exact congrArg TopicPartition.display same

end Plans

def ofPartition (tp : TopicPartition) (record : KafkaRecord) : Bool :=
  decide (record.topic = tp.topic) && decide (record.partition = tp.partition)

section Partitions
variable {records : List KafkaRecord}

lemma ofPartition_recordOf : ofPartition tp (recordOf other record) = decide (other = tp) := by
  obtain ⟨topic,partition⟩ := tp
  obtain ⟨topic',partition'⟩ := other
  rw [Bool.eq_iff_iff,ofPartition,Bool.and_eq_true,decide_eq_true_iff,decide_eq_true_iff,
    decide_eq_true_iff,TopicPartition.mk.injEq]
  exact Iff.rfl

lemma Taken.filter {other : TopicPartition} (taken : Taken fits other wanted records) :
    records.filter (ofPartition tp) = if other = tp then records else [] := by
  obtain ⟨count,_,rfl⟩ := taken
  rw [filter_map]
  split
  · next same => rw [filter_eq_self.mpr (by simp [ofPartition_recordOf,same])]
  · next apart => simp [Function.comp_def,ofPartition_recordOf,apart]

lemma Gathered.absent (gathered : Gathered fits plans wanted records)
    (absent : tp ∉ plans.map Prod.fst) : records.filter (ofPartition tp) = [] := by
  obtain ⟨parts,rfl,each⟩ := gathered
  induction each with
  | nil => rfl
  | cons taken _ ih =>
    rw [map_cons,mem_cons,not_or] at absent
    rw [flatten_cons,filter_append,taken.filter,if_neg (Ne.symm absent.1),ih absent.2,append_nil]

lemma Gathered.present (gathered : Gathered fits plans wanted records)
    (distinct : (plans.map Prod.fst).Nodup) (mem : plan ∈ plans) :
    Taken fits plan.1 (wanted plan) (records.filter (ofPartition plan.1)) := by
  obtain ⟨parts,rfl,each⟩ := gathered
  induction each with
  | nil => cases mem
  | @cons first part plans parts taken others ih =>
    rw [map_cons,nodup_cons] at distinct
    rw [flatten_cons,filter_append,taken.filter]
    rcases mem_cons.mp mem with rfl | later
    · have rest : Gathered fits plans wanted parts.flatten := ⟨parts,rfl,others⟩
      rw [if_pos rfl,rest.absent distinct.1,append_nil]
      exact taken
    · have apart : first.1 ≠ plan.1 := fun same => distinct.1 (same ▸ mem_map_of_mem later)
      rw [if_neg apart,nil_append]
      exact ih distinct.2 later

def byPartitionAndOffset (one other : KafkaRecord) : Bool :=
  one.partition < other.partition || (one.partition == other.partition && one.offset ≤ other.offset)

lemma filter_mergeSort
    (sorted : (records.filter (ofPartition tp)).Pairwise fun one other => one.offset ≤ other.offset) :
    (records.mergeSort byPartitionAndOffset).filter (ofPartition tp) = records.filter (ofPartition tp) := by
  have trans (one other third : KafkaRecord) (first : byPartitionAndOffset one other = true)
      (second : byPartitionAndOffset other third = true) : byPartitionAndOffset one third = true := by
    simp only [byPartitionAndOffset,Bool.or_eq_true,Bool.and_eq_true,decide_eq_true_eq,beq_iff_eq] at *
    omega
  have total (one other : KafkaRecord) :
      (byPartitionAndOffset one other || byPartitionAndOffset other one) = true := by
    simp only [byPartitionAndOffset,Bool.or_eq_true,Bool.and_eq_true,decide_eq_true_eq,beq_iff_eq]
    omega
  have ordered : (records.filter (ofPartition tp)).Pairwise
      fun one other => byPartitionAndOffset one other = true := by
    apply sorted.imp_of_mem
    intro one other mem mem' le
    have here := (mem_filter.mp mem).2
    have there := (mem_filter.mp mem').2
    simp only [ofPartition,Bool.and_eq_true,decide_eq_true_eq] at here there
    simp [byPartitionAndOffset,here.2,there.2,le]
  have within := sublist_mergeSort trans total ordered filter_sublist
  have still := within.filter (ofPartition tp)
  rw [filter_filter] at still
  simp only [Bool.and_self] at still
  apply Eq.symm
  apply still.eq_of_length
  exact ((mergeSort_perm records byPartitionAndOffset).filter _).length_eq.symm

end Partitions

def recordRow (record : KafkaRecord) : Row :=
  [record.key.map binary,record.value.map binary,some (.text record.topic),
    some (.int record.partition.val),some (.int record.offset),some (.int record.timestampMs),
    some (.int timestampTypeCreateTime)]

def rowsOf (tp : TopicPartition) (batches : List RecordBatch) : List Row :=
  (batches.flatMap (·.rows)).filter fun row =>
    decide (row.cell 2 = some (.text tp.topic)) && decide (row.cell 3 = some (.int tp.partition.val))

def rangeRecords (broker : Broker) (range : BatchRange) (tp : TopicPartition) : List Record :=
  match spanOf tp range with
  | some (start,stop) => stretch (·.offset) start stop (broker.log tp).records
  | none => []

lemma rangeRecords_nil (empty : ∀ start stop, spanOf tp range = some (start,stop) → stop ≤ start) :
    rangeRecords broker range tp = [] := by
  unfold rangeRecords
  split
  · next start stop span =>
    have := empty start stop span
    rw [stretch,filter_eq_nil_iff]
    intro record _
    simp only [Bool.and_eq_true,decide_eq_true_eq]
    omega
  · rfl

/-- Every record of the range is returned once, in the order of the offsets, and no other. -/
def Complete (broker : Broker) (range : BatchRange) (batches : List RecordBatch) : Prop :=
  ∀ tp, rowsOf tp batches = (rangeRecords broker range tp).map fun record => recordRow (recordOf tp record)

lemma rowsOf_toRecordBatch :
    rowsOf tp (if records.isEmpty then [] else [toRecordBatch records]) =
      (records.filter (ofPartition tp)).map recordRow := by
  have rows : (if records.isEmpty then [] else [toRecordBatch records]).flatMap (·.rows) = records.map recordRow := by
    split
    · next none => simp [isEmpty_iff.mp none]
    · exact append_nil _
  rw [rowsOf,rows,filter_map]
  congr 1
  apply filter_congr
  intro record _
  simp [recordRow,Row.cell,ofPartition,Fin.ext_iff]

section Polling
open KafkaSource
def Polled (fits : Nat → Prop) (broker : Broker) (range : BatchRange) (batches : List RecordBatch) : Prop :=
  ∀ tp, ∃ count, fits count ∧ rowsOf tp batches =
    ((rangeRecords broker range tp).take count).map fun record => recordRow (recordOf tp record)

def plansRecords (broker : Broker) (plan : Plan) : List Record :=
  stretch (·.offset) plan.2.1 plan.2.2 (broker.log plan.1).records

lemma gathered_polled (some : fits maxFetchRounds) (named : Named range.end)
    (ordered : ∀ tp, (broker.log tp).Ordered)
    (gathered : Gathered fits (plansOf range) (plansRecords broker) records) :
    Polled fits broker range (if (records.mergeSort byPartitionAndOffset).isEmpty then []
      else [toRecordBatch (records.mergeSort byPartitionAndOffset)]) := by
  intro tp
  rw [rowsOf_toRecordBatch]
  by_cases asked : ∃ start stop, spanOf tp range = .some (start,stop) ∧ start < stop
  · obtain ⟨start,stop,span,full⟩ := asked
    obtain ⟨count,enough,same⟩ := gathered.present (plansOf_distinct named) ((mem_plansOf named).mpr ⟨span,full⟩)
    have wanted : rangeRecords broker range tp = plansRecords broker (tp,start,stop) := by
      unfold rangeRecords
      rw [span]
      rfl
    refine ⟨count,enough,?_⟩
    rw [filter_mergeSort,same,wanted,map_map]
    · rfl
    · rw [same,pairwise_map]
      exact ((stretch_ascending (ordered tp).ascending start stop).sublist
        (take_sublist _ _)).imp fun before => Int.le_of_lt before
  · have absent : records.filter (ofPartition tp) = [] := by
      apply gathered.absent
      intro mem
      obtain ⟨⟨other,start,stop⟩,listed,rfl⟩ := mem_map.mp mem
      exact asked ⟨start,stop,(mem_plansOf named).mp listed⟩
    refine ⟨maxFetchRounds,some,?_⟩
    rw [filter_mergeSort (by rw [absent]; exact .nil),absent,rangeRecords_nil fun start stop span =>
      Int.not_lt.mp fun full => asked ⟨start,stop,span,full⟩]
    rfl

lemma spans_of_isEmpty (empty : range.isEmpty = true) (start stop)
    (span : spanOf tp range = some (start,stop)) : stop ≤ start := by
  rw [BatchRange.isEmpty,Bool.and_eq_true,all_eq_true] at empty
  rw [spanOf,Option.map_eq_some_iff] at span
  obtain ⟨last,there,same⟩ := span
  cases same
  simpa using empty.2 _ (Std.ExtTreeMap.mem_toList_iff_getElem?_eq_some.mpr there)

def Retained (broker : Broker) (range : BatchRange) : Prop :=
  ∀ tp start stop, spanOf tp range = some (start,stop) →
    (broker.log tp).earliest ≤ start ∧ stop ≤ (broker.log tp).latest

lemma pollRange_reads (answering : Answering wire.choices) (named : Named range.end)
    (ordered : ∀ tp, (wire.broker.log tp).Ordered) (retained : Retained wire.broker range) :
    Returns (pollRange options range) (Polled (maxFetchRounds ≤ ·) wire.broker range) self wire := by
  unfold Returns pollRange
  split
  · next empty =>
    rintro _ ⟨⟩ tp
    exact ⟨maxFetchRounds,le_rfl,by rw [rangeRecords_nil (spans_of_isEmpty empty)]; rfl⟩
  split
  · rintro _ ⟨⟩
  split
  · have ready : Ready (plansOf range) (plansRecords wire.broker) wire := by
      refine ⟨?_,answering⟩
      rintro ⟨tp,start,stop⟩ mem
      exact ⟨ordered tp,(retained tp start stop ((mem_plansOf named).mp mem).1).2,rfl⟩
    have fetches : Returns (fetchRange options range) (fun sorted => Polled (maxFetchRounds ≤ ·)
        wire.broker range (if sorted.isEmpty then [] else [toRecordBatch sorted])) self wire := by
      refine ensures_step (ready_ensures ready _) nofun ?_
      intro _ middle between later
      rw [ensures_get_bind,ensures_bind,ensures_raise]
      obtain ⟨e,planned⟩ := fetchPlans_eq middle
      by_cases all : (plansOf range).all (middle.partitionClients.contains ·.1) = true
      · rw [planned,if_pos all]
        refine ensures_step (fetchAll_reads later) nofun ?_
        rintro records _ _ gathered _ ⟨⟩
        exact gathered_polled le_rfl named ordered (gathered records rfl)
      · rw [planned,if_neg all]
        rintro _ ⟨⟩
    refine ensures_step fetches nofun ?_
    intro records _ _ polled
    have polled := polled records rfl
    dsimp only at polled ⊢
    split
    · next none =>
      rw [if_pos none] at polled
      rintro _ ⟨⟩
      exact polled
    · next some =>
      rw [if_neg some] at polled
      rintro _ ⟨⟩
      exact polled
  · rintro _ ⟨⟩

end Polling

section Succeeding
open KafkaSource
variable {broker : Broker}

def calm : Choice where
  count := 1

structure Calm (broker : Broker) (more : Nat) (wire : Wire) : Prop where
  broker : wire.broker = broker
  choices : ∃ count, more ≤ count ∧ wire.choices = List.replicate count calm

lemma Calm.next (answers : Calm broker (more + 1) wire) (request)
    (unnoted : ∀ tp offset, request ≠ .noteStart tp offset) :
    (Broker.reply () wire request).1 = (Broker.answer calm broker request).1 ∧
      Calm broker more (Broker.reply () wire request).2 := by
  obtain ⟨choices,_⟩ := wire
  obtain ⟨rfl,count,enough,rfl⟩ := answers
  obtain ⟨count,rfl⟩ : ∃ rest, count = rest + 1 := ⟨count - 1,by omega⟩
  refine ⟨rfl,?_,count,by omega,rfl⟩
  cases request with
  | noteStart tp offset => exact absurd rfl (unnoted tp offset)
  | _ => rfl

def Gives {α : Type} (method : Method α) (broker : Broker) (more : Nat) (post : α → Prop)
    (self : KafkaSource) (wire : Wire) : Prop :=
  method.Ensures Broker.reply Anywhere (fun result after final => after = self ∧
    (∃ value, result = .ok value ∧ post value) ∧ Calm broker more final) self wire

lemma Gives.bind {first : Method α} {rest : α → Method β} (gives : Gives first broker more middle self wire)
    (next : ∀ value final, middle value → Calm broker more final →
      (rest value).Ensures Broker.reply Anywhere post self final) :
    (first >>= rest).Ensures Broker.reply Anywhere post self wire := by
  apply ensures_step gives
  · rintro _ _ _ ⟨_,⟨_,⟨⟩,_⟩,_⟩
  · rintro _ _ _ ⟨rfl,⟨_,⟨⟩,held⟩,later⟩
    exact next _ _ held later

lemma fetchPartition_gives {more : Nat} {next : Int} {wanted : List Record} (kept : (broker.log tp).earliest ≤ next)
    (holds : (broker.log tp).Holds next stop wanted) (answers : Calm broker (more + rounds) wire) :
    Gives (fetchPartition tp stop rounds next) broker more (Taken (· = rounds) tp wanted) self wire := by
  have fewer {rounds : Nat} {wire : Wire} (answers : Calm broker (more + rounds) wire) : Calm broker more wire := by
    obtain ⟨same,count,enough,all⟩ := answers
    exact ⟨same,count,by omega,all⟩
  induction rounds generalizing next wanted wire with
  | zero => exact ⟨rfl,⟨[],rfl,0,rfl,by simp⟩,fewer answers⟩
  | succ rounds ih =>
    have nothing {wire : Wire} (none : wanted = []) (later : Calm broker more wire) :
        Gives (pure []) broker more (Taken (· = rounds + 1) tp wanted) self wire :=
      ⟨rfl,⟨[],rfl,_,rfl,by simp [none]⟩,later⟩
    unfold Gives fetchPartition
    split
    · next beyond =>
      apply nothing _ (fewer answers)
      rw [← holds.stretch,stretch,filter_eq_nil_iff]
      intro record _
      simp only [Bool.and_eq_true,decide_eq_true_eq]
      omega
    · rw [ensures_bind,ensures_request]
      refine ⟨trivial,fun _ => ?_⟩
      obtain ⟨answer,later⟩ := Calm.next answers (.fetchRecords tp next) (by simp)
      have given := holds.given
      have fetched : (Broker.answer calm broker (.fetchRecords tp next)).1 =
          .ok (((broker.log tp).records.filter fun record => next ≤ record.offset).take 1) :=
        if_neg (by omega)
      obtain ⟨ends,read,onward,rest⟩ := read_once holds le_rfl
      rw [answer,fetched]
      dsimp only
      split
      · next empty => exact nothing (ends (isEmpty_iff.mp empty)) (fewer later)
      · apply Gives.bind (ih (Int.le_trans kept onward) rest later)
        intro records final more later
        rw [read]
        exact ⟨rfl,⟨_,rfl,more.more fun count same => by omega⟩,later⟩

lemma fetchAll_gives {wire : Wire} (kept : ∀ plan ∈ plans, (broker.log plan.1).earliest ≤ plan.2.1 ∧
      (broker.log plan.1).Holds plan.2.1 plan.2.2 (plansRecords broker plan))
    (answers : Calm broker (more + plans.length * maxFetchRounds) wire) :
    Gives (fetchAll plans) broker more (Gathered (· = maxFetchRounds) plans (plansRecords broker)) self wire := by
  induction plans generalizing wire with
  | nil => exact ⟨rfl,⟨[],rfl,[],rfl,.nil⟩,by simpa using answers⟩
  | cons plan plans ih =>
    obtain ⟨tp,start,stop⟩ := plan
    obtain ⟨low,holds⟩ := kept _ mem_cons_self
    rw [length_cons,Nat.succ_mul,← Nat.add_assoc] at answers
    apply Gives.bind (fetchPartition_gives low holds answers)
    intro part between taken later
    apply Gives.bind (ih (fun other mem => kept other (mem_cons_of_mem _ mem)) later)
    intro others final gathered later
    exact ⟨rfl,⟨_,rfl,.cons taken gathered⟩,later⟩

structure Serves (source : KafkaSource) (range : BatchRange) : Prop where
  kafka : range.source = "kafka"
  assigned : source.assigned = true
  clients : ∀ tp : TopicPartition, tp.display ∈ range.end → source.partitionClients.contains tp = true

lemma fetchPlans_serves (named : Named range.end) (serves : Serves self range) :
    self.fetchPlans range = .ok (plansOf range) := by
  obtain ⟨e,planned⟩ := fetchPlans_eq self
  rw [planned,if_pos]
  rw [all_eq_true]
  rintro ⟨tp,start,stop⟩ mem
  obtain ⟨last,there,_⟩ := Option.map_eq_some_iff.mp ((mem_plansOf named).mp mem).1
  exact serves.clients tp (Std.ExtTreeMap.mem_iff_isSome_getElem?.mpr (by rw [there]; rfl))

lemma assign_fresh (assigned : self.assigned = true) (answers : Calm broker (more + 1) wire) :
    Gives (assign options) broker more (fun _ => True) self wire := by
  refine ⟨trivial,fun _ => ?_⟩
  obtain ⟨answer,later⟩ := Calm.next answers .metadataFresh (by simp)
  rw [answer,assigned]
  exact ⟨rfl,⟨(),rfl,trivial⟩,later⟩

lemma pollRange_gives (full : range.isEmpty = false) (named : Named range.end)
    (ordered : ∀ tp, (broker.log tp).Ordered) (serves : Serves self range) (retained : Retained broker range)
    (answers : Calm broker (0 + (plansOf range).length * maxFetchRounds + 1) wire) :
    (pollRange options range).Ensures Broker.reply Anywhere (fun result after _ =>
        after = moveTo range self ∧
        ∃ batches, result = .ok batches ∧ Polled (· = maxFetchRounds) broker range batches) self wire := by
  have fetches : Gives (fetchRange options range) broker 0 (fun sorted => Polled
      (· = maxFetchRounds) broker range (if sorted.isEmpty then [] else [toRecordBatch sorted]))
      self wire := by
    apply Gives.bind (assign_fresh serves.assigned answers)
    intro _ between _ later
    rw [ensures_get_bind,fetchPlans_serves named serves,ensures_bind,ensures_raise]
    refine Gives.bind (fetchAll_gives ?_ later) ?_
    · rintro ⟨tp,start,stop⟩ mem
      obtain ⟨low,high⟩ := retained tp start stop ((mem_plansOf named).mp mem).1
      exact ⟨low,ordered tp,high,rfl⟩
    · intro records final gathered later
      exact ⟨rfl,⟨_,rfl,gathered_polled rfl named ordered gathered⟩,later⟩
  unfold pollRange
  rw [if_neg (by simp [full]),if_neg (by simp [serves.kafka]),if_pos serves.kafka]
  apply Gives.bind fetches
  intro records _ polled _
  rw [ensures_bind,ensures_modify]
  dsimp only
  split
  · next none => exact ⟨rfl,_,rfl,by rwa [if_pos none] at polled⟩
  · next some => exact ⟨rfl,_,rfl,by rwa [if_neg some] at polled⟩

end Succeeding

section Completeness
open KafkaSource
variable {options : KafkaOptions} {state : State} {range : BatchRange}

def WithinRounds (broker : Broker) (range : BatchRange) : Prop :=
  ∀ tp, (rangeRecords broker range tp).length ≤ maxFetchRounds

variable (named : Named range.end) (ordered : ∀ tp, (state.broker.log tp).Ordered)
  (retained : Retained state.broker range)
include named ordered retained

lemma poll_complete (within : WithinRounds state.broker range) (answering : Answering input)
    (done : (call (pollRange options range) input state).1 = .ok batches) :
    Complete state.broker range batches := by
  obtain ⟨_,read⟩ := call_ensures (pollRange options range) input state
    (pollRange_reads answering named ordered retained)
  intro tp
  obtain ⟨count,enough,rows⟩ := read batches done tp
  rw [rows,take_of_length_le (le_trans (within tp) enough)]

lemma poll_cut_short (full : range.isEmpty = false) (serves : Serves state.self range) :
    ∃ input batches, Answering input ∧ (call (pollRange options range) input state).1 = .ok batches ∧
      (call (pollRange options range) input state).2.self = state.self.moveTo range ∧
      ∀ tp, rowsOf tp batches =
          ((rangeRecords state.broker range tp).take maxFetchRounds).map
            fun record => recordRow (recordOf tp record) := by
  let input := List.replicate (0 + (plansOf range).length * maxFetchRounds + 1) calm
  obtain ⟨_,moved,batches,done,polled⟩ := call_ensures (pollRange options range) input state
    (pollRange_gives full named ordered serves retained ⟨rfl,_,le_rfl,rfl⟩)
  refine ⟨input,batches,?_,done,moved,fun tp => ?_⟩
  · intro choice mem
    rw [eq_of_mem_replicate mem]
    exact Nat.le_refl 1
  · obtain ⟨_,rfl,rows⟩ := polled tp
    exact rows

/-- A poll that succeeds is complete if no partition has more records in the range than rounds; if
one has more, some answers leave records out. -/
theorem fetch_range_complete :
    (WithinRounds state.broker range →
      ∀ input batches, Answering input → (call (pollRange options range) input state).1 = .ok batches →
        Complete state.broker range batches) ∧
    (Serves state.self range →
      ((∀ input batches, Answering input → (call (pollRange options range) input state).1 = .ok batches →
            Complete state.broker range batches) ↔ WithinRounds state.broker range)) := by
  have sufficient (within : WithinRounds state.broker range) (input : List Choice)
      (batches : List RecordBatch) (answering : Answering input)
      (done : (call (pollRange options range) input state).1 = .ok batches) :
      Complete state.broker range batches :=
    poll_complete named ordered retained within answering done
  refine ⟨sufficient,fun serves => ⟨fun complete tp => ?_,sufficient⟩⟩
  cases empty : range.isEmpty with
  | true =>
    rw [rangeRecords_nil (spans_of_isEmpty empty)]
    exact Nat.zero_le _
  | false =>
    obtain ⟨input,batches,answering,done,_,short⟩ :=
      @poll_cut_short options state range named ordered retained empty serves
    have rows := (short tp).symm.trans (complete input batches answering done tp)
    have lengths := congrArg List.length rows
    rw [length_map,length_map,length_take] at lengths
    omega

end Completeness

namespace Sample
open KafkaSource

def orders : TopicPartition := ⟨"orders",0⟩

def unread (count : Nat) : State where
  self := {
    offsets := (∅ : PartitionMap Int).insert orders 0
    partitionClients := (∅ : PartitionMap Unit).insert orders ()
    assigned := true}
  broker := {
    topics := [⟨"orders",[0]⟩]
    log := fun tp => if tp = orders then {
      latest := count
      records := (List.range count).map fun offset : Nat => ⟨none,none,offset,0⟩} else {}}

def wholeLog (count : Nat) : BatchRange where
  source := "kafka"
  start := (∅ : BTreeMap Int).insert orders.display 0
  «end» := (∅ : BTreeMap Int).insert orders.display count

def readers : KafkaOptions := ⟨["broker:9092"],["orders"],.earliest,none⟩

lemma wholeLog_named : Named (wholeLog count).end := by
  intro key there
  rcases Std.ExtTreeMap.mem_insert.mp there with same | none
  · exact ⟨orders,(Std.LawfulEqCmp.compare_eq_iff_eq.mp same).symm⟩
  · exact absurd none Std.ExtTreeMap.not_mem_empty

lemma wholeLog_span : spanOf tp (wholeLog count) = if orders = tp then some (0,(count : Int)) else none := by
  unfold spanOf wholeLog
  rw [display_getElem?_insert,display_getElem?_insert]
  split <;> rfl

lemma unread_ordered (tp) : ((unread count).broker.log tp).Ordered := by
  unfold unread
  dsimp only
  split
  · constructor
    · rw [Rising,pairwise_map]
      exact pairwise_lt_range.imp fun before => by simpa using before
    · intro record mem
      obtain ⟨offset,inside,rfl⟩ := mem_map.mp mem
      simpa using inside
  · exact ⟨.nil,nofun⟩

lemma wholeLog_retained : Retained (unread count).broker (wholeLog count) := by
  intro tp start stop span
  rw [wholeLog_span] at span
  split at span
  · next same =>
    subst same
    cases span
    exact ⟨Int.le_refl 0,Int.le_refl _⟩
  · cases span

lemma wholeLog_records :
    rangeRecords (unread count).broker (wholeLog count) tp =
      if orders = tp then (List.range count).map fun offset => ⟨none,none,offset,0⟩ else [] := by
  unfold rangeRecords
  rw [wholeLog_span]
  split
  · next start stop span =>
    split at span
    · next same =>
      subst same
      cases span
      change stretch _ _ _ ((List.range count).map _) = _
      rw [stretch,if_pos rfl,filter_eq_self]
      intro record mem
      obtain ⟨offset,inside,rfl⟩ := mem_map.mp mem
      simpa using inside
    · cases span
  · next none =>
    split at none
    · cases none
    · next other => rw [if_neg other]

lemma unread_serves : Serves (unread count).self (wholeLog count) := by
  refine ⟨rfl,rfl,fun tp there => ?_⟩
  rcases Std.ExtTreeMap.mem_insert.mp there with same | none
  · rw [← display_inj (Std.LawfulEqCmp.compare_eq_iff_eq.mp same)]
    exact Std.ExtTreeMap.contains_insert_self
  · exact absurd none Std.ExtTreeMap.not_mem_empty

theorem two_read :
    WithinRounds (unread 2).broker (wholeLog 2) ∧
    ∀ input batches, Answering input → (call (pollRange readers (wholeLog 2)) input (unread 2)).1 = .ok batches →
      Complete (unread 2).broker (wholeLog 2) batches := by
  have within : WithinRounds (unread 2).broker (wholeLog 2) := by
    intro tp
    rw [wholeLog_records]
    split <;> decide
  exact ⟨within,(fetch_range_complete (wholeLog_named) (unread_ordered) (wholeLog_retained)).1 within⟩

/-- Of 513 records that come one at a time the last is left out, and never read again. -/
theorem last_record_skipped :
    ∃ input batches, Answering input ∧
      (call (pollRange readers (wholeLog 513)) input (unread 513)).1 = .ok batches ∧
      (call (pollRange readers (wholeLog 513)) input (unread 513)).2.self.offsets[orders]? = some 513 ∧
      (rowsOf orders batches).length = 512 ∧ (rangeRecords (unread 513).broker (wholeLog 513) orders).length = 513 ∧
      ¬ Complete (unread 513).broker (wholeLog 513) batches := by
  obtain ⟨input,batches,answering,done,moved,short⟩ := @poll_cut_short readers (unread 513)
    (wholeLog 513) (wholeLog_named) (unread_ordered) (wholeLog_retained) (by decide)
    (unread_serves)
  have there : (rangeRecords (unread 513).broker (wholeLog 513) orders).length = 513 := by
    rw [wholeLog_records,if_pos rfl,length_map,length_range]
  have read : (rowsOf orders batches).length = 512 := by
    rw [short,length_map,length_take,there]
    rfl
  refine ⟨input,batches,answering,done,?_,read,there,fun complete => ?_⟩
  · rw [moved]
    change (putOffsets (wholeLog 513).end _)[orders]? = _
    unfold wholeLog
    rfl
  · have lengths := congrArg List.length (complete orders)
    rw [read,length_map,there] at lengths
    omega

end Sample
end Oxidant.Kafka
