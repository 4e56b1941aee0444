import Oxidant.Kafka.Calls
import Oxidant.LogPruning

/-! What the committed ranges cover of a partition, over every run of a query that reads from Kafka,
restarts and replays included: they follow one another from the offset it was first assigned at. -/
namespace Oxidant.Kafka
open List hiding after count range
open Lib Streaming Journal JournalRefinement

def spans (tp : TopicPartition) (ranges : List BatchRange) : List (Int × Int) :=
  ranges.filterMap (spanOf tp)

def Tiles : Int → List (Int × Int) → Prop
  | _,[] => True
  | first,(start,stop)::rest => start = first ∧ Tiles stop rest

def endOf (first : Int) (spans : List (Int × Int)) : Int := (spans.getLast?.map Prod.snd).getD first

section Spans
variable {tp : TopicPartition} {ranges : List BatchRange}

lemma spans_append (tp ranges others) : spans tp (ranges ++ others) = spans tp ranges ++ spans tp others :=
  filterMap_append

lemma spans_take_nil (none : spans tp ranges = []) : spans tp (ranges.take count) = [] := by
  rw [← take_append_drop count ranges,spans_append,append_eq_nil_iff] at none
  exact none.1

lemma spans_take_add_one (there : ranges[count]? = some range) :
    spans tp (ranges.take (count + 1)) = spans tp (ranges.take count) ++ (spanOf tp range).toList := by
  rw [take_add_one,there,spans_append]
  cases found : spanOf tp range <;> simp [spans,found]

lemma endOf_concat (span) : endOf first (list ++ [span]) = span.2 := by
  simp [endOf]

lemma tiles_append (first one other) :
    Tiles first (one ++ other) ↔ Tiles first one ∧ Tiles (endOf first one) other := by
  induction one generalizing first with
  | nil => exact (and_iff_right trivial).symm
  | cons span rest ih =>
    have last : endOf first (span::rest) = endOf span.2 rest := by cases rest <;> simp [endOf,getLast?_cons]
    rw [last]
    exact (and_congr Iff.rfl (ih span.2)).trans and_assoc.symm

end Spans

/-- Offsets stand at the first assignment or where the last range ends. Of free partitions nothing
is said. -/
structure Stands (broker : Broker) (free : TopicPartition → Prop) (ranges : List BatchRange)
    (place : TopicPartition → Option Int) : Prop where
  placed : ∀ tp o, place tp = some o → ¬ free tp → ∃ first : Int,
    broker.firstAssigned[tp]? = some first ∧ o = endOf first (spans tp ranges)
  bare : ∀ tp, place tp = none → spans tp ranges = []

def Pending (journal : Journal State) (done : Nat) (tp : TopicPartition) : Prop :=
  ∃ range, journal.ranges[done]? = some range ∧ spanOf tp range ≠ none

/-- Where the source stands at a stage of its next batch. A range read and not committed is read
again. -/
def StandsAt (journal : Journal State) (done : Nat) : Stage → Prop
  | .idle | .ended => Stands journal.source.broker (Pending journal done) (journal.ranges.take done)
      fun tp => journal.source.self.offsets[tp]?
  | .polled _ | .ready => Stands journal.source.broker (fun _ => False)
      (journal.ranges.take (done + 1)) fun tp => journal.source.self.offsets[tp]?
  | .committed _ | .saved => Stands journal.source.broker (fun _ => False)
      (journal.ranges.take done) fun tp => journal.source.self.offsets[tp]?

structure InUse (source : KafkaSource) (broker : Broker) : Prop where
  clients : ∀ tp ∈ source.partitionClients, source.offsets[tp]? ≠ none
  assigned : source.assigned = true → ∀ tp : TopicPartition,
    broker.firstAssigned[tp]? ≠ none → source.offsets[tp]? ≠ none

def Standing (journal : Journal State) : Prop :=
  match journal.process with
  | .down => True
  | .starting _ => journal.source.self = {}
  | .up done stage => InUse journal.source.self journal.source.broker ∧ StandsAt journal done stage

def Names (broker : Broker) (ranges : List BatchRange) (offsets : SourceOffsets) : Prop :=
  offsets.source = "kafka" ∧ Named offsets.entries ∧
    Stands broker (fun _ => False) ranges fun tp => offsets.entries[tp.display]?

/-- All recorded ranges follow one another in every partition, and so do the commit entries and the
source. -/
structure Covered (options : KafkaOptions) (journal : Journal State) : Prop where
  tiles : ∀ (tp : TopicPartition) (first : Int),
    journal.source.broker.firstAssigned[tp]? = some first → Tiles first (spans tp journal.ranges)
  unknown : ∀ tp : TopicPartition,
    journal.source.broker.firstAssigned[tp]? = none → spans tp journal.ranges = []
  shaped : ∀ range ∈ journal.ranges,
    range.isEmpty = false ∧ range.source = "kafka" ∧ Named range.end
  listed : ∀ tp : TopicPartition, journal.source.broker.firstAssigned[tp]? ≠ none →
    Listed options journal.source.broker tp
  positions : ∀ index position, journal.positions[index]? = some position → ∃ offsets,
    position = some offsets ∧ Names journal.source.broker (journal.ranges.take (index + 1)) offsets
  standing : Standing journal

/-- The partitions to be found again: assigned before, and neither in the restored position nor in
the next range. -/
def Open (journal : Journal State) (done : Nat) (tp : TopicPartition) (o : Int) : Prop :=
  journal.source.broker.firstAssigned[tp]? = some o ∧ journal.source.self.offsets[tp]? = none ∧
    ¬ Pending journal done tp

def Found (options : KafkaOptions) (broker : Broker) (tp : TopicPartition) (o : Int) : Prop :=
  match KafkaSource.startingAt options tp with
  | .inl explicit => explicit = o
  | .inr place => broker.getOffset tp place = o

def Still (options : KafkaOptions) (tps : TopicPartition → Prop) (input : List Choice) : Prop :=
  ∀ tp, tps tp → KafkaSource.startingAt options tp = .inr .latest → Quiet tp input

def Refinds (options : KafkaOptions) (tps : TopicPartition → Prop) (journal : Journal State) : Prop :=
  ∀ done stage, journal.process = .up done stage → ∀ tp o, Open journal done tp o →
    tps tp ∧ Found options journal.source.broker tp o

section Steps
lemma Stands.mono {broker final : Broker} {ranges : List BatchRange} (stands : Stands broker free ranges place)
    (first : ∀ (tp : TopicPartition) (o : Int), broker.firstAssigned[tp]? = some o →
      final.firstAssigned[tp]? = some o)
    (frees : ∀ tp, free tp → less tp) : Stands final less ranges place where
  placed tp o there bound := by
    obtain ⟨start,known,same⟩ := stands.placed tp o there fun is => bound (frees tp is)
    exact ⟨start,first tp start known,same⟩
  bare := stands.bare

lemma Stands.back (stands : Stands journal.source.broker (fun _ => False) (journal.ranges.take (done + 1)) place) :
    Stands journal.source.broker (Pending journal done) (journal.ranges.take done) place where
  placed tp o there bound := by
    obtain ⟨start,known,same⟩ := stands.placed tp o there id
    refine ⟨start,known,same.trans ?_⟩
    cases next : journal.ranges[done]? with
    | none => rw [take_add_one,next,Option.toList_none,append_nil]
    | some range =>
      have unspanned : spanOf tp range = none :=
        Classical.not_not.mp fun spanned => bound ⟨range,next,spanned⟩
      rw [spans_take_add_one next,unspanned,Option.toList_none,append_nil]
  bare tp none := by
    have short := @spans_take_nil tp _ done (stands.bare tp none)
    rwa [take_take,Nat.min_eq_left (Nat.le_succ done)] at short

lemma StandsAt.idle (stands : StandsAt journal done stage) : StandsAt journal done .idle := by
  cases stage with
  | idle | ended => exact stands
  | polled | ready => exact Stands.back stands
  | committed | saved => exact Stands.mono stands (fun _ _ => id) fun _ => False.elim

namespace Covered

lemma moved (covered : Covered options journal) (self held recorded resume process)
    (standing : Standing {journal with source := ⟨self,journal.source.broker⟩,held,recorded,resume,process}) :
    Covered options {journal with source := ⟨self,journal.source.broker⟩,held,recorded,resume,process} :=
  ⟨covered.tiles,covered.unknown,covered.shaped,covered.listed,covered.positions,standing⟩

lemma known (covered : Covered options journal) (mem : range ∈ journal.ranges) (spanned : spanOf tp range ≠ none) :
    ∃ first : Int, journal.source.broker.firstAssigned[tp]? = some first := by
  apply Option.ne_none_iff_exists'.mp
  intro unknown
  have none := covered.unknown tp unknown
  rw [spans,filterMap_eq_nil_iff] at none
  exact spanned (none range mem)

lemma inUse (covered : Covered options journal) (up : journal.process = .up done stage) :
    InUse journal.source.self journal.source.broker ∧ StandsAt journal done stage := by
  have standing := covered.standing
  unfold Standing at standing
  rw [up] at standing
  exact standing

end Covered

lemma Found.settled (found : Found options broker tp o) (among : tps tp)
    (still : Still options tps input) : Settled options ⟨input,broker⟩ tp o := by
  have quiet := still tp among
  unfold Found at found
  unfold Settled
  split at found
  · next same => rw [same]; exact found
  · next place same =>
    rw [same]
    cases place with
    | earliest => exact found
    | latest => exact ⟨found,quiet same⟩

lemma Found.passed (wire) (found : Found options wire.broker tp o) (among : tps tp)
    (still : Still options tps wire.choices) (passed : Passed options wire final) :
    Found options final.broker tp o := by
  have quiet := still tp among
  unfold Found at found ⊢
  split at found
  · exact found
  · next place same =>
    cases place with
    | earliest => exact (passed.earliest tp).trans found
    | latest => exact (passed.latest tp (quiet same)).trans found

section Assigned
lemma Stands.assigned (covered : Covered options journal) (refinds : Refinds options tps journal)
    (idle : journal.process = .up done .idle) (still : Still options tps input)
    (assigns : Assigns options journal.source.self ⟨input,journal.source.broker⟩ after final) :
    Stands final.broker (Pending journal done) (journal.ranges.take done) fun tp => after.offsets[tp]? := by
  obtain ⟨use,stands⟩ := covered.inUse idle
  refine ⟨fun tp o there bound => ?_,fun tp none => stands.bare tp ?_⟩
  · cases before : journal.source.self.offsets[tp]? with
    | some offset =>
      have same : offset = o := Option.some.inj ((assigns.kept tp offset before).symm.trans there)
      obtain ⟨start,known,reached⟩ := stands.placed tp offset before bound
      exact ⟨start,assigns.first tp start known,same ▸ reached⟩
    | none =>
      obtain ⟨new,again⟩ := assigns.seeded tp o there before
      have bare := stands.bare tp before
      rw [bare]
      cases known : journal.source.broker.firstAssigned[tp]? with
      | none => exact ⟨o,new known,rfl⟩
      | some start =>
        -- A process that has assigned before has an offset for it.
        have first : journal.source.self.assigned = false := by
          cases is : journal.source.self.assigned with
          | false => rfl
          | true => exact absurd before (use.assigned is tp (by rw [known]; exact Option.some_ne_none _))
        obtain ⟨among,found⟩ := refinds done .idle idle tp start ⟨known,before,bound⟩
        exact ⟨start,assigns.first tp start known,again start known first (found.settled among still)⟩
  · cases before : journal.source.self.offsets[tp]? with
    | none => rfl
    | some offset =>
      have there := assigns.kept tp offset before
      rw [none] at there
      cases there

lemma InUse.more (covered : Covered options journal) (use : InUse journal.source.self journal.source.broker)
    (assigns : Assigns options journal.source.self ⟨input,journal.source.broker⟩ after final) :
    InUse after final.broker where
  clients := assigns.clients use.clients
  assigned is tp known := by
    obtain ⟨o,there⟩ := Option.ne_none_iff_exists'.mp known
    rcases assigns.noted tp o there with before | ⟨seeded,_⟩
    · have before : journal.source.broker.firstAssigned[tp]? ≠ none := by
        rw [show journal.source.broker.firstAssigned[tp]? = _ from before]
        exact Option.some_ne_none _
      rcases assigns.complete is with already | all
      · obtain ⟨offset,has⟩ := Option.ne_none_iff_exists'.mp (use.assigned already tp before)
        rw [assigns.kept tp offset has]
        exact Option.some_ne_none _
      · exact all tp (covered.listed tp before)
    · rw [seeded]
      exact Option.some_ne_none _

lemma Covered.assigned (covered : Covered options journal) (refinds : Refinds options tps journal)
    (idle : journal.process = .up done .idle) (still : Still options tps input)
    (assigns : Assigns options journal.source.self ⟨input,journal.source.broker⟩ after final) :
    Covered options {journal with source := ⟨after,final.broker⟩} where
  tiles tp first known := by
    rcases before : journal.source.broker.firstAssigned[tp]? with _ | start
    · rw [covered.unknown tp before]
      trivial
    · have same : start = first := Option.some.inj ((assigns.first tp start before).symm.trans known)
      exact covered.tiles tp first (same ▸ before)
  unknown tp none := by
    apply covered.unknown tp
    rcases before : journal.source.broker.firstAssigned[tp]? with _ | start
    · rfl
    · have there := assigns.first tp start before
      rw [show final.broker.firstAssigned[tp]? = _ from none] at there
      cases there
  shaped := covered.shaped
  listed tp known := by
    obtain ⟨o,there⟩ := Option.ne_none_iff_exists'.mp known
    rcases assigns.noted tp o there with before | ⟨_,listed⟩
    · refine assigns.listed tp (covered.listed tp ?_)
      rw [show journal.source.broker.firstAssigned[tp]? = _ from before]
      exact Option.some_ne_none _
    · exact listed
  positions index position there := by
    obtain ⟨offsets,same,kafka,named,stands⟩ := covered.positions index position there
    exact ⟨offsets,same,kafka,named,stands.mono assigns.first fun _ => id⟩
  standing := by
    have use := (covered.inUse idle).1.more covered assigns
    have stands := Stands.assigned covered refinds idle still assigns
    rw [idle]
    exact ⟨use,stands⟩

lemma Refinds.assigned (refinds : Refinds options tps journal) (still : Still options tps input)
    (assigns : Assigns options journal.source.self ⟨input,journal.source.broker⟩ after final) :
    Refinds options tps {journal with source := ⟨after,final.broker⟩} := by
  rintro done stage up tp o ⟨known,unseeded,bound⟩
  have before : journal.source.broker.firstAssigned[tp]? = some o := by
    rcases assigns.noted tp o known with before | ⟨seeded,_⟩
    · exact before
    · rw [show after.offsets[tp]? = _ from unseeded] at seeded
      cases seeded
  have unplaced : journal.source.self.offsets[tp]? = none := by
    rcases placed : journal.source.self.offsets[tp]? with _ | offset
    · rfl
    · have there := assigns.kept tp offset placed
      rw [show after.offsets[tp]? = _ from unseeded] at there
      cases there
  obtain ⟨among,found⟩ := refinds done stage up tp o ⟨before,unplaced,bound⟩
  exact ⟨among,found.passed ⟨input,journal.source.broker⟩ among still assigns.toPassed⟩

lemma covered_assigned (covered : Covered options journal) (refinds : Refinds options tps journal)
    (idle : journal.process = .up done .idle) (still : Still options tps input)
    (assigns : Assigns options journal.source.self ⟨input,journal.source.broker⟩ state.self ⟨choices,state.broker⟩) :
    Covered options {journal with source := state} ∧ Refinds options tps {journal with source := state} :=
  ⟨covered.assigned refinds idle still assigns,refinds.assigned still assigns⟩

end Assigned

section Batches
lemma Covered.recorded (covered : Covered options journal) (sound : Sound journal)
    (idle : journal.process = .up done .idle) (last : journal.ranges.length ≤ done)
    (planned : PlannedFrom journal.source.self range) (some : range.isEmpty = false) :
    Covered options {journal with ranges := journal.ranges ++ [range]} := by
  obtain ⟨use,stands⟩ := covered.inUse idle
  have stands : Stands _ _ _ _ := stands
  have committed := (sound.up _ _ idle).2.1
  have ahead := sound.planned
  rw [take_of_length_le last] at stands
  have unread : ∀ tp, ¬ Pending journal done tp := by
    rintro tp ⟨range,there,_⟩
    rw [getElem?_eq_none last] at there
    cases there
  have adds : ∀ tp, spans tp (journal.ranges ++ [range]) = spans tp journal.ranges ++ (spanOf tp range).toList := by
    intro tp
    cases found : spanOf tp range <;> simp [spans,found]
  refine ⟨fun tp first known => ?_,fun tp unknown => ?_,?_,covered.listed,?_,?_⟩
  · rw [adds,tiles_append]
    refine ⟨covered.tiles tp first known,?_⟩
    cases found : spanOf tp range with
    | none => trivial
    | some span =>
      obtain ⟨start,same,place⟩ := stands.placed tp span.1 (planned.starts tp _ _ found) (unread tp)
      cases (show journal.source.broker.firstAssigned[tp]? = _ from known).symm.trans same
      exact ⟨place,trivial⟩
  · rw [adds,covered.unknown tp unknown]
    cases found : spanOf tp range with
    | none => rfl
    | some span =>
      obtain ⟨start,same,_⟩ := stands.placed tp span.1 (planned.starts tp _ _ found) (unread tp)
      cases (show journal.source.broker.firstAssigned[tp]? = _ from unknown).symm.trans same
  · intro other mem
    rcases mem_append.mp mem with old | new
    · exact covered.shaped other old
    · cases mem_singleton.mp new
      exact ⟨some,planned.kafka,planned.named⟩
  · intro index position there
    have inside := (List.getElem?_eq_some_iff.mp there).1
    dsimp only at inside ⊢
    rw [take_append_of_le_length (by omega)]
    exact covered.positions index position there
  · rw [idle]
    refine ⟨use,?_⟩
    change Stands _ _ ((journal.ranges ++ [range]).take done) _
    rw [show done = journal.ranges.length by omega,take_left']
    · exact stands.mono (fun _ _ => id) fun tp pending => absurd pending (unread tp)
    · rfl

lemma moveTo_getElem? (named : Named range.end) (self : KafkaSource) (tp : TopicPartition) :
    (self.moveTo range).offsets[tp]? = range.end[tp.display]?.or self.offsets[tp]? :=
  putOffsets_getElem? named self.offsets tp

section
variable (covered : Covered options journal)
include covered

lemma Covered.polled (idle : journal.process = .up done .idle) (there : journal.ranges[done]? = some range)
    (batches : List RecordBatch) :
    Covered options {journal with
      source := ⟨journal.source.self.moveTo range,journal.source.broker⟩
      process := .up done (.polled batches)} := by
  obtain ⟨use,stands⟩ := covered.inUse idle
  have mem := mem_of_getElem? there
  have named := (covered.shaped range mem).2.2
  refine covered.moved _ _ _ _ _ ⟨⟨fun tp client => ?_,fun is tp known => ?_⟩,?_,?_⟩
  · rw [moveTo_getElem? named]
    exact fun none => use.clients tp client (Option.or_eq_none_iff.mp none).2
  · rw [moveTo_getElem? named]
    exact fun none => use.assigned is tp known (Option.or_eq_none_iff.mp none).2
  · intro tp o place _
    rw [moveTo_getElem? named] at place
    rw [spans_take_add_one there]
    cases stop : range.end[tp.display]? with
    | some stop' =>
      have found : spanOf tp range = some (range.start[tp.display]?.getD 0,stop') := by
        unfold spanOf
        rw [stop]
        rfl
      rw [stop] at place
      obtain ⟨first,known⟩ := covered.known mem (by rw [found]; exact Option.some_ne_none _)
      refine ⟨first,known,?_⟩
      rw [found,Option.toList_some,endOf_concat]
      exact (Option.some.inj place).symm
    | none =>
      have found : spanOf tp range = none := by
        unfold spanOf
        rw [stop]
        rfl
      rw [stop] at place
      rw [found,Option.toList_none,append_nil]
      apply stands.placed tp o place
      rintro ⟨other,next,spanned⟩
      cases there.symm.trans next
      exact spanned found
  · intro tp unplaced
    rw [moveTo_getElem? named,Option.or_eq_none_iff] at unplaced
    rw [spans_take_add_one there,stands.bare tp unplaced.2]
    unfold spanOf
    rw [unplaced.1]
    rfl

lemma Refinds.polled (refinds : Refinds options tps journal) (idle : journal.process = .up done .idle)
    (there : journal.ranges[done]? = some range) (batches : List RecordBatch) :
    Refinds options tps {journal with
      source := ⟨journal.source.self.moveTo range,journal.source.broker⟩
      process := .up done (.polled batches)} := by
  rintro _ _ ⟨rfl,rfl⟩ tp o ⟨known,unplaced,bound⟩
  have named := (covered.shaped range (mem_of_getElem? there)).2.2
  rw [moveTo_getElem? named,Option.or_eq_none_iff] at unplaced
  exact refinds done .idle idle tp o ⟨known,unplaced.2,bound⟩

lemma covered_polled (refinds : Refinds options tps journal) (idle : journal.process = .up done .idle)
    (there : journal.ranges[done]? = some range) (still : Still options tps input)
    (assigns : Assigns options journal.source.self ⟨input,journal.source.broker⟩ middle ⟨choices,state.broker⟩)
    (moves : state.self = middle.moveTo range) :
    Covered options {journal with source := state,process := .up done (.polled batches)} ∧
    Refinds options tps {journal with source := state,process := .up done (.polled batches)} := by
  obtain ⟨self,broker⟩ := state
  cases moves
  have assigned := covered.assigned refinds idle still assigns
  have found := refinds.assigned still assigns
  exact ⟨assigned.polled idle there batches,found.polled assigned idle there batches⟩

lemma Covered.committed (sound : Sound journal) (ready : journal.process = .up done .ready) (acknowledged : Bool) :
    Covered options {journal with
      positions := put journal.positions done (some journal.source.self.committedOffsets)
      process := if acknowledged then .up (done + 1) (.committed (some journal.source.self.committedOffsets))
        else .up done .ended} := by
  obtain ⟨use,stands⟩ := covered.inUse ready
  refine ⟨covered.tiles,covered.unknown,covered.shaped,covered.listed,fun index position there => ?_,?_⟩
  · rw [put_getElem? (sound.up _ _ ready).2.1] at there
    split at there
    · next same =>
      cases there
      subst same
      obtain ⟨named,reads⟩ := committedOffsets_entries journal.source.self
      refine ⟨_,rfl,rfl,named,?_⟩
      rw [show (fun tp : TopicPartition => journal.source.self.committedOffsets.entries[tp.display]?) =
        fun tp => journal.source.self.offsets[tp]? from funext reads]
      exact stands
    · exact covered.positions index position there
  · cases acknowledged with
    | true => exact ⟨use,stands⟩
    | false =>
      have back : StandsAt journal done .idle := stands.idle
      exact ⟨use,back⟩

lemma Refinds.committed (refinds : Refinds options tps journal) (ready : journal.process = .up done .ready)
    (acknowledged : Bool) (positions offsets) :
    Refinds options tps {journal with
      positions
      process := if acknowledged then .up (done + 1) (.committed offsets) else .up done .ended} := by
  obtain ⟨_,stands⟩ := covered.inUse ready
  rintro other stage up tp o ⟨known,unplaced,_⟩
  refine refinds done .ready ready tp o ⟨known,unplaced,?_⟩
  rintro ⟨range,there,spanned⟩
  have bare := stands.bare tp unplaced
  rw [spans_take_add_one there,append_eq_nil_iff,Option.toList_eq_nil_iff] at bare
  exact spanned bare.2

end

end Batches

lemma Covered.started (covered : Covered options journal) (sound : Sound journal)
    (starting : journal.process = .starting walked) :
    Covered options {journal with
      source := journal.resume.elim journal.source fun offsets =>
          ⟨journal.source.self.restoreOffsets options offsets,journal.source.broker⟩,
          process := .up journal.recorded .idle} := by
  have fresh : journal.source.self = {} := by
    have standing := covered.standing
    unfold Standing at standing
    rw [starting] at standing
    exact standing
  have use (offsets : PartitionMap Int) : InUse {offsets} journal.source.broker :=
    ⟨fun _ none => by simp at none,nofun⟩
  rcases sound.resume with ⟨zero,none⟩ | ⟨later,there⟩
  · rw [zero,none]
    apply covered.moved journal.source.self _ _ _ _
    rw [fresh]
    refine ⟨use _,fun tp o there => ?_,fun tp _ => rfl⟩
    simp at there
  · obtain ⟨offsets,resumed,kafka,named,stands⟩ := covered.positions _ _ there
    rw [resumed]
    apply covered.moved (journal.source.self.restoreOffsets options offsets) _ _ _ _
    have restored : (({} : KafkaSource).restoreOffsets options offsets) =
        {offsets := KafkaSource.putOffsets offsets.entries ∅} := by
      unfold KafkaSource.restoreOffsets
      simp [kafka]
    unfold Standing
    rw [fresh,restored]
    refine ⟨use _,?_⟩
    have places : (fun tp : TopicPartition => (KafkaSource.putOffsets offsets.entries ∅)[tp]?) =
        fun tp => offsets.entries[tp.display]? := by
      funext tp
      rw [putOffsets_getElem? named]
      simp
    rw [Nat.sub_add_cancel later] at stands
    unfold StandsAt
    rw [places]
    exact stands.mono (fun _ _ => id) fun _ => False.elim

end Steps

section Runs
variable (options : KafkaOptions) (plan : List RecordBatch → List RecordBatch)
  (violations : String → List RecordBatch → Nat) (mayFail : Streaming.Request → Bool)

def environment : Environment State (List Choice) :=
  {source := source options,build,plan,violations,mayFail}

variable {options plan violations mayFail}

lemma Covered.starts
    (step : Step (restrict (environment options plan violations mayFail) good) config journal .starting after)
    (sound : Sound journal) (covered : Covered options journal) : Covered options after := by
  cases step with
  | crash => exact covered.moved journal.source.self _ _ _ _ trivial
  | build => exact covered.moved {} _ _ _ _ rfl
  | recover starting =>
    apply covered.moved journal.source.self _ _ _ _
    have standing := covered.standing
    unfold Standing at standing
    rw [starting] at standing
    exact standing
  | start starting => exact covered.started sound starting

lemma planBatch_assigns (journal : Journal State) (use : InUse journal.source.self journal.source.broker) :
    ∃ choices, let called := (source options).planBatch input journal.source
      Assigns options journal.source.self ⟨input,journal.source.broker⟩ called.2.self ⟨choices,called.2.broker⟩ ∧
      ∀ range, called.1 = .ok range → range = {} ∨ PlannedFrom called.2.self range :=
  call_ensures _ input journal.source (planBatch_ensures use.clients)

lemma pollRange_assigns (covered : Covered options journal) {done : Nat}
    (there : journal.ranges[done]? = some range)
    (use : InUse journal.source.self journal.source.broker) :
    ∃ choices middle, let called := (source options).pollRange input range journal.source
      Assigns options journal.source.self ⟨input,journal.source.broker⟩ middle ⟨choices,called.2.broker⟩ ∧
      called.2.self = if called.1.toBool then middle.moveTo range else middle := by
  obtain ⟨some,kafka,_⟩ := covered.shaped range (mem_of_getElem? there)
  obtain ⟨choices,holds⟩ := call_ensures (KafkaSource.pollRange options range) input journal.source
    (pollRange_ensures some kafka use.clients)
  rw [show call (KafkaSource.pollRange options range) input journal.source =
    (source options).pollRange input range journal.source from rfl] at holds
  cases answer : ((source options).pollRange input range journal.source).1 with
  | error e =>
    rw [answer] at holds
    refine ⟨choices,_,holds,?_⟩
    rw [answer]
    rfl
  | ok batches =>
    rw [answer] at holds
    obtain ⟨middle,assigns,moved⟩ := holds
    refine ⟨choices,middle,assigns,?_⟩
    rw [answer]
    exact moved

lemma Covered.runs
    (step : Step (restrict (environment options plan violations mayFail) (Still options tps)) config journal
        .running after)
    (sound : Sound journal) (covered : Covered options journal) (refinds : Refinds options tps journal) :
    Covered options after ∧ Refinds options tps after := by
  cases step with
  | crash => exact ⟨covered.moved journal.source.self _ _ _ _ trivial,nofun⟩
  | abandon up =>
    obtain ⟨use,stands⟩ := covered.inUse up
    have back : StandsAt journal _ .idle := stands.idle
    refine ⟨covered.moved journal.source.self _ _ _ _ ⟨use,back⟩,?_⟩
    rintro _ _ ⟨rfl,rfl⟩
    exact refinds _ _ up
  | plan up last input =>
    obtain ⟨choices,assigns,_⟩ := planBatch_assigns journal (covered.inUse up).1
    exact covered_assigned covered refinds up input.2 assigns
  | record up last input answer some =>
    obtain ⟨choices,assigns,planned⟩ := planBatch_assigns journal (covered.inUse up).1
    obtain ⟨covered,refinds⟩ := covered_assigned covered refinds up input.2 assigns
    rcases planned _ answer with rfl | planned
    · cases some
    refine ⟨covered.recorded (sound.sourced _) up last planned some,?_⟩
    rintro done stage here tp o ⟨known,unplaced,bound⟩
    refine refinds done stage here tp o ⟨known,unplaced,?_⟩
    rintro ⟨other,there,spanned⟩
    have inside := (List.getElem?_eq_some_iff.mp there).1
    exact bound ⟨other,(getElem?_append_left inside).trans there,spanned⟩
  | miss up there input answer =>
    obtain ⟨choices,middle,assigns,stays⟩ :=
      pollRange_assigns covered there (covered.inUse up).1
    rw [show ((source options).pollRange input.1 _ journal.source).1 = _ from answer] at stays
    cases stays
    exact covered_assigned covered refinds up input.2 assigns
  | poll up there input answer =>
    obtain ⟨choices,middle,assigns,moves⟩ :=
      pollRange_assigns covered there (covered.inUse up).1
    rw [show ((source options).pollRange input.1 _ journal.source).1 = _ from answer] at moves
    exact covered_polled covered refinds up there input.2 assigns moves
  | skip up =>
    obtain ⟨use,stands⟩ := covered.inUse up
    refine ⟨covered.moved journal.source.self _ _ _ _ ⟨use,stands⟩,?_⟩
    rintro _ _ ⟨rfl,rfl⟩
    exact refinds _ _ up
  | write up _ _ acknowledged =>
    obtain ⟨use,stands⟩ := covered.inUse up
    refine ⟨covered.moved journal.source.self _ _ _ _ ?_,?_⟩
    · cases acknowledged <;> exact ⟨use,stands⟩
    · cases acknowledged <;>
      · rintro _ _ ⟨rfl,rfl⟩
        exact refinds _ _ up
  | commit up acknowledged =>
    exact ⟨covered.committed sound up acknowledged,refinds.committed covered up acknowledged _ _⟩
  | save up acknowledged =>
    obtain ⟨use,stands⟩ := covered.inUse up
    refine ⟨covered.moved journal.source.self _ _ _ _ ?_,?_⟩
    · cases acknowledged with
      | true => exact ⟨use,stands⟩
      | false =>
        have back : StandsAt journal _ .idle := stands.idle
        exact ⟨use,back⟩
    · cases acknowledged <;>
      · rintro _ _ ⟨rfl,rfl⟩
        exact refinds _ _ up
  | durable up =>
    obtain ⟨use,stands⟩ := covered.inUse up
    have back : StandsAt journal _ .idle := stands.idle
    refine ⟨covered.moved journal.source.self _ _ _ _ ⟨use,back⟩,?_⟩
    rintro _ _ ⟨rfl,rfl⟩
    exact refinds _ _ up

lemma Covered.rest (covered : Covered options journal) : Covered options journal.rest := by
  apply covered.moved journal.source.self _ _ _ _
  have standing := covered.standing
  unfold Standing at standing
  cases process : journal.process with
  | up done stage =>
    rw [process] at standing
    have back : StandsAt journal done .idle := standing.2.idle
    exact ⟨standing.1,back⟩
  | down => trivial
  | starting =>
    rw [process] at standing
    exact standing

end Runs

open BatchProtocol

instance (options : KafkaOptions) (broker : Broker) (tp : TopicPartition) (o : Int) :
    Decidable (Found options broker tp o) := by
  unfold Found
  split <;> infer_instance

instance (tp : TopicPartition) (choices : List Choice) : Decidable (Quiet tp choices) := by
  unfold Quiet
  infer_instance

instance : (first : Int) → (spans : List (Int × Int)) → Decidable (Tiles first spans)
  | _,[] => .isTrue trivial
  | first,(start,stop)::rest =>
    have := instDecidableTiles stop rest
    inferInstanceAs (Decidable (start = first ∧ Tiles stop rest))

/-- The committed ranges of every partition follow one another from where it was first assigned. -/
def Contiguous (world : World State) : Prop :=
  ∀ tp : TopicPartition, match world.source.broker.firstAssigned[tp]? with
    | some first => Tiles first (spans tp world.history)
    | none => spans tp world.history = []

/-- A batch is run only where every partition the query had before, and that neither the position
nor the recorded range has, would be assigned again at its first offset. -/
def Refound (options : KafkaOptions) : Sys State → Action (List Choice) → Prop
  | ⟨world,some rt⟩,.batch choices =>
    ∀ entry ∈ world.source.broker.firstAssigned.toList,
      world.source.self.offsets[entry.1]? = none →
      (∀ range ∈ world.disk.planned (rt.batchId + 1), spanOf entry.1 range = none) →
      Found options world.source.broker entry.1 entry.2 ∧
        (KafkaSource.startingAt options entry.1 = .inr .latest →
          ∀ choice ∈ choices, Quiet entry.1 choice.input)
  | _,_ => True

instance (options : KafkaOptions) (sys : Sys State) (action : Action (List Choice)) :
    Decidable (Refound options sys action) := by
  unfold Refound
  split <;> infer_instance

section Runs
variable {options : KafkaOptions} {plan : List RecordBatch → List RecordBatch}
  {violations : String → List RecordBatch → Nat} {mayFail : Streaming.Request → Bool}
  {config : QueryConfig} {journal : Journal State}

lemma covered_initially {broker : Broker} (fresh : broker.firstAssigned = ∅) :
    Covered options {source := ⟨{},broker⟩} where
  tiles _ _ _ := trivial
  unknown _ _ := rfl
  shaped _ none := by cases none
  listed tp known := by
    refine absurd ?_ known
    rw [fresh]
    simp
  positions _ _ none := by simp at none
  standing := trivial

lemma Covered.contiguous (covered : Covered options journal) {world : World State}
    (shows_ : Shows world journal) : Contiguous world := by
  intro tp
  rw [shows_.source,shows_.history]
  split
  · next first known =>
    have all := covered.tiles tp first known
    rw [← List.take_append_drop journal.positions.length journal.ranges,spans_append,tiles_append] at all
    exact all.1
  · next unknown => exact spans_take_nil (covered.unknown tp unknown)

lemma Refound.refinds {world : World State} {rt : QueryRuntime}
    {choices : List (Streaming.Choice (List Choice))}
    (refound : Refound options ⟨world,some rt⟩ (.batch choices))
    (presents : Presents config ⟨world,some rt⟩ journal) :
    Refinds options (fun tp => ∃ o, Open journal rt.batchId tp o) journal ∧
      ∀ input ∈ choices.map (·.input),
        Still options (fun tp => ∃ o, Open journal rt.batchId tp o) input := by
  have up : journal.process = .up rt.batchId .idle := presents.process
  have low := (presents.sound.up _ _ up).1
  have found : ∀ tp o, Open journal rt.batchId tp o →
      Found options world.source.broker tp o ∧
        (KafkaSource.startingAt options tp = .inr .latest →
          ∀ choice ∈ choices, Quiet tp choice.input) := by
    rintro tp o ⟨known,unplaced,bound⟩
    rw [← presents.shows_.source] at known unplaced
    refine refound (tp,o) (Std.ExtTreeMap.mem_toList_iff_getElem?_eq_some.mpr known) unplaced ?_
    intro range planned
    rw [presents.shows_.planned _ (Nat.lt_succ_of_le low)] at planned
    exact Classical.not_not.mp fun spanned => bound ⟨range,planned,spanned⟩
  constructor
  · intro done stage here tp o opened
    rw [up] at here
    cases here
    exact ⟨⟨o,opened⟩,presents.shows_.source ▸ (found tp o opened).1⟩
  · rintro input mem tp ⟨o,opened⟩ latest
    obtain ⟨choice,among,rfl⟩ := List.mem_map.mp mem
    exact (found tp o opened).2 latest choice among

lemma Covered.kept (reads : mayFail .getOffsets = false) {sys : Sys State}
    {action : Action (List Choice)} (below : LogPruning.PrunesBelow sys action)
    (refound : Refound options sys action) (presents : Presents config sys journal)
    (covered : Covered options journal) :
    ∃ after, Presents config (sys.step (environment options plan violations mayFail) config action) after ∧
      Covered options after := by
  obtain ⟨world,query⟩ := sys
  refine action_kept reads below presents covered
    (covered.moved journal.source.self _ _ _ _ trivial) (fun id choices same => ?_)
    fun rt choices up same => ?_
  · exact ⟨Covered options,covered,fun before after step sound covered =>
      Covered.starts step sound covered,fun last covered => covered.rest⟩
  · cases up
    subst same
    obtain ⟨refinds,still⟩ := refound.refinds presents
    exact ⟨_,fun journal => Covered options journal ∧ Refinds options _ journal,
      fun choice among => still _ (List.mem_map_of_mem among),⟨covered,refinds⟩,
      fun before after step sound held => Covered.runs step sound held.1 held.2,
      fun last held => held.1.rest⟩

end Runs

/-- The committed ranges of every partition are contiguous from its first offset, if the resume
record is read and pruned below and each batch finds again what the query had before. -/
theorem committed_contiguous (options : KafkaOptions) (plan : List RecordBatch → List RecordBatch)
    (violations : String → List RecordBatch → Nat) (mayFail : Streaming.Request → Bool) (config : QueryConfig)
    (reads : mayFail .getOffsets = false) (broker : Broker) (fresh : broker.firstAssigned = ∅)
    (actions : List (Action (List Choice)))
    (below : Sys.Meets (environment options plan violations mayFail) config LogPruning.PrunesBelow
        (initially ⟨{},broker⟩) actions)
    (refound : Sys.Meets (environment options plan violations mayFail) config (Refound options)
        (initially ⟨{},broker⟩) actions) :
    Contiguous
      ((initially ⟨{},broker⟩).run (environment options plan violations mayFail) config actions).world := by
  obtain ⟨journal,presents,covered⟩ := presents_run
    (fun sys action journal met presents covered => Covered.kept reads met.1 met.2 presents covered)
    (Sys.meets_and below refound) (presents_initially _) (covered_initially fresh)
  exact covered.contiguous presents.shows_

namespace Sample

def broker : Broker where
  topics := [⟨"orders",[0,1]⟩]

def optionsFrom (startingOffsets : StartingOffsets) : KafkaOptions where
  brokers := ["broker:9092"]
  topics := ["orders"]
  startingOffsets := startingOffsets
  maxOffsetsPerTrigger := none

def world (startingOffsets : StartingOffsets) : Environment State (List Choice) :=
  environment (optionsFrom startingOffsets) id (fun _ _ => 0) LogPruning.savesMayFail

def arrival (partition : Fin (2^31)) : Choice where
  arrivals := [.record ⟨"orders",partition⟩ none none 0]

def answered (count : Nat) : List (Streaming.Choice (List Choice)) :=
  List.replicate count {input := List.replicate 30 {}}

def replayed : List (Action (List Choice)) :=
  [.start ⟨"query","run"⟩ (answered 7),
   .batch [{input := []},{input := List.replicate 9 {} ++ arrival 0::List.replicate 4 {}},{input := []}],
   .start ⟨"query","run"⟩ (answered 7),
   .batch ({input := []}::{input := arrival 1::List.replicate 20 {}}::answered 7),
   .batch ({input := []}::{input := arrival 1::List.replicate 20 {}}::answered 9)]

end Sample

theorem replayed_contiguous :
    Contiguous
      ((initially ⟨{},Sample.broker⟩).run (Sample.world .earliest) RateReplay.passThrough Sample.replayed).world :=
  committed_contiguous (Sample.optionsFrom .earliest) id (fun _ _ => 0) LogPruning.savesMayFail
    RateReplay.passThrough rfl Sample.broker rfl Sample.replayed (by decide +kernel) (by decide +kernel)

/-- Read from the end of the logs, the other partition is assigned anew past the record that came
meanwhile: its range begins at 1, and it was first assigned at 0. -/
theorem replayed_skips :
    Sys.Meets (Sample.world .latest) RateReplay.passThrough LogPruning.PrunesBelow (initially ⟨{},Sample.broker⟩)
      Sample.replayed ∧
    ¬ Contiguous
      ((initially ⟨{},Sample.broker⟩).run (Sample.world .latest) RateReplay.passThrough Sample.replayed).world := by
  refine ⟨by decide +kernel,fun contiguous => ?_⟩
  have other := contiguous ⟨"orders",1⟩
  revert other
  generalize held : ((initially ⟨{},Sample.broker⟩).run (Sample.world .latest) RateReplay.passThrough
    Sample.replayed).world = final
  have first : final.source.broker.firstAssigned[(⟨"orders",1⟩ : TopicPartition)]? = some 0 := by
    rw [← held]
    decide +kernel
  have committed : spans ⟨"orders",1⟩ final.history = [(1,2)] := by
    rw [← held]
    decide +kernel
  rw [first,committed]
  exact fun tiles => absurd tiles.1 (by decide)
end Oxidant.Kafka
