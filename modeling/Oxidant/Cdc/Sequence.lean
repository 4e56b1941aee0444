import Oxidant.AutoCdc.Merge
import Oxidant.Cdc.Durability
import Mathlib.Data.List.Flatten

/-! The sequence values of the rows in the sink: a merge orders the rows of a key by the log position
they carry, which is that of the write of a change and not of its commit. -/
namespace Oxidant.Cdc
open List hiding after merge range span
open Lib Oxidant.Streaming Oxidant.Streaming.Journal JournalRefinement BatchProtocol PostgresCdcSource
open AutoCdc (gt)

section History
variable (publisher : Publisher) (setup : Setup)

/-- No transaction that ends past the point has written a change for the source before it. -/
def Undivided (point : Nat) : Prop :=
  ∀ txn ∈ publisher.log, point < txn.endLsn → ∀ change ∈ txn.changes, change.events setup ≠ [] →
    point ≤ change.walStart

instance (point : Nat) : Decidable (Undivided publisher setup point) :=
  inferInstanceAs (Decidable (∀ txn ∈ publisher.log, _ → ∀ change ∈ txn.changes, _ → _))

variable {κ : Type} (key : List (Option Scalar) → κ)

def SameKey (one other : ChangeEvent) : Prop :=
  ∃ first second, setup.cells one.values = .ok first ∧ setup.cells other.values = .ok second ∧ key first = key second

/-- The changes of a key are written in commit order, as a row lock has it, and no change makes two
rows of a key. -/
structure KeyOrdered : Prop where
  written : (publisher.log.flatMap (·.changes)).Pairwise fun one other =>
    ∀ event ∈ one.events setup, ∀ next ∈ other.events setup, SameKey setup key event next →
      one.walStart < other.walStart
  alone : ∀ change ∈ publisher.log.flatMap (·.changes),
    (change.events setup).Pairwise fun event next => ¬ SameKey setup key event next

end History

section Events
variable {publisher : Publisher} {key : List (Option Scalar) → κ} {self : PostgresCdcSource}

lemma changes_op (mem : event ∈ self.changes setup walStart message) : event.op ≠ .snapshot := by
  cases message with
  | insert => simp [pushChange_op mem]
  | update oid key old new =>
    rcases mem_append.mp mem with was | now
    · split at was
      · simp [pushRow_op was]
      · cases was
    · simp [pushChange_op now]
  | delete => simp [pushChange_op mem]
  | truncate options oids =>
    obtain ⟨oid,_,mem⟩ := mem_flatMap.mp mem
    simp [pushChange_op mem]
  | _ => cases mem

lemma eventsIn_mem (mem : event ∈ publisher.eventsIn setup first last) :
    ∃ txn ∈ publisher.log, first < txn.endLsn ∧ txn.endLsn ≤ last ∧ event ∈ txn.events setup := by
  obtain ⟨txn,among,mem⟩ := mem_flatMap.mp mem
  simp only [mem_filter,Bool.and_eq_true,decide_eq_true_eq] at among
  exact ⟨txn,among.1,among.2.1,among.2.2,mem⟩

lemma Undivided.lsn (undivided : Undivided publisher setup point) (past : point ≤ first)
    (mem : event ∈ publisher.eventsIn setup first last) : event.op ≠ .snapshot ∧ (point : Int) ≤ event.lsn := by
  obtain ⟨txn,among,lower,_,mem⟩ := eventsIn_mem mem
  obtain ⟨plain,inside,rfl⟩ := mem_map.mp mem
  obtain ⟨change,there,inside⟩ := mem_flatMap.mp inside
  have written := txn.written change there
  have small := txn.small
  have low := undivided txn among (by omega) change there (ne_nil_of_mem inside)
  have stamped : plain.lsn = _ := changes_lsn inside
  have op : plain.op ≠ .snapshot := changes_op inside
  refine ⟨op,?_⟩
  rw [stamped,Lsn.asI64_eq (by omega)]
  omega

section
variable (ordered : KeyOrdered publisher setup key)
include ordered

lemma KeyOrdered.events :
    (publisher.log.flatMap (Transaction.events setup)).Pairwise
      fun event next => SameKey setup key event next → event.lsn < next.lsn := by
  have stamped (one other : Change) (txn : Transaction) (there : other ∈ txn.changes)
      (less : one.walStart < other.walStart) (event : ChangeEvent) (mem : event ∈ one.events setup)
      (next : ChangeEvent) (among : next ∈ other.events setup) : event.lsn < next.lsn := by
    have written := txn.written other there
    have small := txn.small
    rw [show event.lsn = _ from changes_lsn mem,show next.lsn = _ from changes_lsn among]
    exact Lsn.asI64_lt less (by omega)
  obtain ⟨each,across⟩ := pairwise_flatMap.mp ordered.written
  rw [pairwise_flatMap]
  constructor
  · intro txn among
    unfold Transaction.events
    rw [pairwise_map,pairwise_flatMap]
    constructor
    · intro change there
      apply (ordered.alone change (mem_flatMap.mpr ⟨txn,among,there⟩)).imp
      exact fun apart same => absurd same apart
    · apply (each txn among).imp_of_mem
      intro one other _ there less event mem next among same
      exact stamped one other txn there (less event mem next among same) event mem next among
  · apply across.imp
    intro txn later less event mem next among same
    obtain ⟨plain,written,rfl⟩ := mem_map.mp mem
    obtain ⟨one,here,written⟩ := mem_flatMap.mp written
    obtain ⟨other,follows,rfl⟩ := mem_map.mp among
    obtain ⟨change,there,follows⟩ := mem_flatMap.mp follows
    exact stamped one change later there (less one here change there plain written other follows same)
      plain written other follows

lemma KeyOrdered.eventsIn (first last) :
    (publisher.eventsIn setup first last).Pairwise
      fun event next => SameKey setup key event next → event.lsn < next.lsn :=
  ordered.events.sublist (filter_sublist.flatMap _)

lemma KeyOrdered.across {next} (lower : first ≤ last) (between : last ≤ start) (upper : start ≤ stop)
    (mem : event ∈ publisher.eventsIn setup first last)
    (among : next ∈ publisher.eventsIn setup start stop) (same : SameKey setup key event next) :
    event.lsn < next.lsn := by
  have whole := ordered.eventsIn first stop
  rw [← Publisher.eventsIn_append (le_trans lower between) upper,
    ← Publisher.eventsIn_append lower between,pairwise_append] at whole
  exact whole.2.2 event (mem_append_left _ mem) next among same

end

end Events

section Rows
variable (setup : Setup) {κ : Type} (key : List (Option Scalar) → κ)

def sinkRows (world : World State) : List Row :=
  world.sink.held.flatMap fun item => item.2.flatMap (·.rows)

def isSnapshot (row : Row) : Bool := setup.opCell row == some (.text Op.snapshot.code)

def Outranks (one other : Row) : Prop := gt (setup.lsnCell other) (setup.lsnCell one) = some true

/-- Every row of the stream outranks every row of a snapshot, and the earlier rows of the stream
under its key. -/
structure Ranked (world : World State) : Prop where
  snapshot : ∀ one ∈ sinkRows world, ∀ other ∈ sinkRows world, isSnapshot setup one = true →
    isSnapshot setup other = false → Outranks setup one other
  stream : ((sinkRows world).filter fun row => !isSnapshot setup row).Pairwise fun one other =>
    key (setup.values one) = key (setup.values other) → Outranks setup one other

end Rows

section Delivered
variable {publisher : Publisher} {setup : Setup} {env : Environment State χ} {journal : Journal State}

lemma isSnapshot_iff (made : setup.rowOf event = .ok row) : isSnapshot setup row = true ↔ event.op = .snapshot := by
  unfold isSnapshot
  rw [Setup.rowOf_op made,beq_iff_eq]
  cases event.op <;> decide

lemma outranks_iff {next} (made : setup.rowOf event = .ok one) (built : setup.rowOf next = .ok other) :
    Outranks setup one other ↔ event.lsn < next.lsn := by
  unfold Outranks
  rw [Setup.rowOf_lsn made,Setup.rowOf_lsn built]
  change some (decide ((Scalar.int event.lsn) < .int next.lsn)) = _ ↔ _
  rw [Option.some.injEq,decide_eq_true_eq]
  exact Sum.Lex.inl_lt_inl_iff

lemma Follow.within (follow : Follow publisher setup first spans last) (mem : span ∈ spans) :
    first ≤ span.1 ∧ span.2 ≤ last := by
  induction spans generalizing first with
  | nil => cases mem
  | cons head rest ih =>
    obtain ⟨lower,_,recorded,follow⟩ := follow
    have below := recorded.lt
    rcases mem_cons.mp mem with rfl | later
    · exact ⟨lower,follow.le⟩
    · have := ih follow later
      omega

variable (publisher setup) in
def Delivers (journal : Journal State) (item : Nat × List RecordBatch) : Prop :=
  (∃ point ≤ journal.source.server.point, ∃ rows : List (List (Option String)),
    (snapshotEvents point rows).mapM setup.rowOf = .ok (item.2.flatMap (·.rows))) ∨
  ∃ first last, journal.ranges[item.1 - 1]? = some (lsnRange first last) ∧ Recorded publisher setup first last ∧
    Reached publisher setup journal.source.server.point journal.ranges (item.1 - 1) first ∧
    (publisher.eventsIn setup first last).mapM setup.rowOf = .ok (item.2.flatMap (·.rows))

lemma Chronicle.delivers (chronicle : Chronicle publisher setup env config journal)
    (direct : env.plan = id) (whole : config.dedupColumns.isEmpty = true)
    (mem : item ∈ journal.held) : Delivers publisher setup journal item := by
  obtain ⟨range,point,batches,there,below,carries,operators,after,fit,applied⟩ :=
    chronicle.held item mem
  have same : item.2 = batches := by
    have handed : handed env config batches = batches := by
      unfold handed
      rw [direct]
      split <;> rfl
    rw [handed] at applied
    have through := fit.apply_eq whole batches
    rw [applied] at through
    exact Except.ok.inj through
  unfold Delivers
  rw [same]
  rcases carries with ⟨first,last,rfl,recorded,built⟩ | ⟨index,planned,table,rfl,_,_,sliced⟩
  · rcases chronicle.shaped _ _ there with ⟨_,_,_,other,_⟩ | ⟨_,start,stop,again,again',reached⟩
    · exact absurd other lsnRange_ne_snapshotRange
    · obtain ⟨rfl,rfl⟩ := recorded.unique again' again
      exact .inr ⟨first,last,there,recorded,reached,Setup.buildBatches_made built⟩
  · exact .inl ⟨point,below,_,sliced.made⟩

section Ranking
lemma snapshotEvents_lsn (small : point ≤ lsnLimit) (mem : event ∈ snapshotEvents point rows) :
    event.op = .snapshot ∧ event.lsn = point - 1 := by
  obtain ⟨values,_,rfl⟩ := mem_map.mp mem
  unfold lsnLimit at small
  refine ⟨rfl,?_⟩
  dsimp only
  rw [Lsn.asI64_eq (by omega)]
  unfold I64.saturatingSub I64.saturate I64.min I64.max
  split <;> omega

lemma sameKey_of_rows {next} (made : setup.rowOf event = .ok one) (built : setup.rowOf next = .ok other)
    (same : key (setup.values one) = key (setup.values other)) : SameKey setup key event next :=
  ⟨_,_,Setup.rowOf_values made,Setup.rowOf_values built,same⟩

structure Sequenced (publisher : Publisher) (setup : Setup) (journal : Journal State) : Prop where
  ids : journal.held.Pairwise fun one other => one.1 < other.1
  undivided : ∀ place first last : Nat, journal.ranges[place]? = some (lsnRange first last) →
    Undivided publisher setup journal.source.server.point

section Batches
variable (chronicle : Chronicle publisher setup env config journal)
include chronicle

lemma Delivers.row (sequenced : Sequenced publisher setup journal)
    (delivers : Delivers publisher setup journal item) {row : Row} (mem : row ∈ item.2.flatMap (·.rows)) :
    ∃ event, setup.rowOf event = .ok row ∧
      (event.op = .snapshot ∧ event.lsn < journal.source.server.point ∨ event.op ≠ .snapshot ∧
        journal.source.server.point ≤ event.lsn) := by
  rcases delivers with ⟨point,below,rows,made⟩ | ⟨first,last,there,_,reached,made⟩
  · obtain ⟨event,among,makes⟩ := mem_of_mapM_eq_ok made mem
    have limit := le_trans below (le_trans chronicle.shown chronicle.limit)
    obtain ⟨op,lsn⟩ := snapshotEvents_lsn limit among
    exact ⟨event,makes,.inl ⟨op,by omega⟩⟩
  · obtain ⟨event,among,makes⟩ := mem_of_mapM_eq_ok made mem
    exact ⟨event,makes,.inr ((sequenced.undivided _ _ _ there).lsn reached.low among)⟩

lemma Delivers.pairwise (ordered : KeyOrdered publisher setup key)
    (delivers : Delivers publisher setup journal item) :
    (item.2.flatMap (·.rows)).Pairwise fun one other =>
      isSnapshot setup one = false → isSnapshot setup other = false →
      key (setup.values one) = key (setup.values other) → Outranks setup one other := by
  rcases delivers with ⟨point,below,rows,made⟩ | ⟨first,last,there,_,reached,made⟩
  · have none : ∀ row ∈ item.2.flatMap (·.rows), isSnapshot setup row = true := by
      intro row mem
      obtain ⟨event,among,makes⟩ := mem_of_mapM_eq_ok made mem
      have limit := le_trans below (le_trans chronicle.shown chronicle.limit)
      exact (isSnapshot_iff makes).mpr (snapshotEvents_lsn limit among).1
    apply pairwise_of_forall_mem_list
    intro one mem other _ snapshot
    rw [none one mem] at snapshot
    cases snapshot
  · apply pairwise_of_mapM_eq_ok made (ordered.eventsIn first last)
    intro event one next other makes builds less _ _ same
    exact (outranks_iff makes builds).mpr (less (sameKey_of_rows makes builds same))

lemma Delivers.across (sound : Sound journal) (ordered : KeyOrdered publisher setup key)
    {later : Nat × List RecordBatch} (held : item ∈ journal.held)
    (delivers : Delivers publisher setup journal item)
    (delivered : Delivers publisher setup journal later) (less : item.1 < later.1)
    (mem : one ∈ item.2.flatMap (·.rows)) (among : other ∈ later.2.flatMap (·.rows))
    (change : isSnapshot setup one = false) (changed : isSnapshot setup other = false)
    (same : key (setup.values one) = key (setup.values other)) : Outranks setup one other := by
  have read {item : Nat × List RecordBatch} (delivers : Delivers publisher setup journal item)
      {row : Row} (mem : row ∈ item.2.flatMap (·.rows)) (change : isSnapshot setup row = false) :
      ∃ first last event, journal.ranges[item.1 - 1]? = some (lsnRange first last) ∧
        Recorded publisher setup first last ∧
        Reached publisher setup journal.source.server.point journal.ranges (item.1 - 1) first ∧
        event ∈ publisher.eventsIn setup first last ∧ setup.rowOf event = .ok row := by
    rcases delivers with ⟨point,below,rows,made⟩ | ⟨first,last,there,recorded,reached,made⟩
    · obtain ⟨event,among,makes⟩ := mem_of_mapM_eq_ok made mem
      have limit := le_trans below (le_trans chronicle.shown chronicle.limit)
      rw [(isSnapshot_iff makes).mpr (snapshotEvents_lsn limit among).1] at change
      cases change
    · obtain ⟨event,among,makes⟩ := mem_of_mapM_eq_ok made mem
      exact ⟨first,last,event,there,recorded,reached,among,makes⟩
  obtain ⟨first,last,event,there,recorded,_,event_in,makes⟩ := read delivers mem change
  obtain ⟨start,stop,next,_,recorded',reached,next_in,builds⟩ := read delivered among changed
  have positive := (sound.held item held).1
  have below := recorded.lt
  have small := recorded.small
  have span : (first,last) ∈ (journal.ranges.take (later.1 - 1)).filterMap spanOf := by
    have found : (journal.ranges.take (later.1 - 1))[item.1 - 1]? = some (lsnRange first last) := by
      rw [getElem?_take_of_lt (by omega)]
      exact there
    exact mem_filterMap.mpr ⟨_,mem_of_getElem? found,spanOf_lsnRange (by omega) small⟩
  rw [outranks_iff makes builds]
  exact ordered.across (le_of_lt below) (reached.follows.within span).2 (le_of_lt recorded'.lt)
    event_in next_in (sameKey_of_rows makes builds same)

end Batches

lemma Sequenced.ranked (sequenced : Sequenced publisher setup journal)
    (chronicle : Chronicle publisher setup env config journal) (sound : Sound journal)
    (direct : env.plan = id) (whole : config.dedupColumns.isEmpty = true)
    (ordered : KeyOrdered publisher setup key) {world : World State} (shows_ : Shows world journal) :
    Ranked setup key world := by
  have delivers {item : Nat × List RecordBatch} (mem : item ∈ journal.held) :
      Delivers publisher setup journal item := chronicle.delivers direct whole mem
  have rows : sinkRows world = journal.held.flatMap fun item => item.2.flatMap (·.rows) := by
    unfold sinkRows
    rw [shows_.held]
  constructor
  · intro one here other there snapshot change
    rw [rows] at here there
    obtain ⟨item,held,mem⟩ := mem_flatMap.mp here
    obtain ⟨later,kept,among⟩ := mem_flatMap.mp there
    obtain ⟨event,makes,low⟩ := (delivers held).row chronicle sequenced mem
    obtain ⟨next,builds,high⟩ := (delivers kept).row chronicle sequenced among
    have low := low.resolve_right fun ⟨stream,_⟩ => stream ((isSnapshot_iff makes).mp snapshot)
    have high := high.resolve_left fun ⟨op,_⟩ => by
      rw [(isSnapshot_iff builds).mpr op] at change
      cases change
    rw [outranks_iff makes builds]
    omega
  · rw [rows,pairwise_filter,pairwise_flatMap]
    simp only [Bool.not_eq_true']
    constructor
    · exact fun item held => (delivers held).pairwise chronicle ordered
    · apply sequenced.ids.imp_of_mem
      intro item later held kept less one mem other among change changed same
      exact Delivers.across chronicle sound ordered held (delivers held) (delivers kept) less mem among
        change changed same

end Ranking
section Steps
lemma Chronicle.no_stretch (chronicle : Chronicle publisher setup env config journal)
    (sound : Sound journal) (here : journal.process = .up done stage)
    (reading : ¬ Finished setup journal.positions done) (place first last : Nat) :
    journal.ranges[place]? ≠ some (lsnRange first last) := by
  intro there
  rcases chronicle.shaped place _ there with ⟨_,_,_,other,_⟩ | ⟨finished,_⟩
  · exact lsnRange_ne_snapshotRange other
  · have inside : place < journal.ranges.length := (List.getElem?_eq_some_iff.mp there).1
    have few := (chronicle.up here).ranges
    exact reading (chronicle.settled place done finished (by omega) (sound.up _ _ here).2.1)

def Whole (publisher : Publisher) (setup : Setup) (journal : Journal State) : Prop :=
  ∀ done, journal.process = .up done .idle → Finished setup journal.positions done →
    Undivided publisher setup journal.source.server.point

def Settles (setup : Setup) (journal : Journal State) (done : Nat) (state : State) : Prop :=
  state.server.point = journal.source.server.point ∨ ¬ Finished setup journal.positions done ∧
      ∀ place first last : Nat, journal.ranges[place]? ≠ some (lsnRange first last)

lemma Sequenced.sourced (sequenced : Sequenced publisher setup journal)
    (settles : Settles setup journal done state) (process) :
    Sequenced publisher setup {journal with source := state,process} := by
  refine ⟨sequenced.ids,fun place first last there => ?_⟩
  rcases settles with point | ⟨_,none⟩
  · rw [point]
    exact sequenced.undivided place first last there
  · exact absurd there (none place first last)

lemma Whole.sourced (whole : Whole publisher setup journal)
    (here : journal.process = .up done .idle) (settles : Settles setup journal done state) :
    Whole publisher setup {journal with source := state} := by
  intro other idle finished
  cases (show journal.process = _ from idle).symm.trans here
  rcases settles with point | ⟨reading,_⟩
  · rw [point]
    exact whole done here finished
  · exact absurd finished reading

lemma Whole.busy {process : Process} (busy : ∀ done, process ≠ .up done .idle) (here : journal.process = process) :
    Whole publisher setup journal :=
  fun done idle => absurd (here.symm.trans idle) (busy done)

section Calls
variable (valid : setup.Valid) (chronicle : Chronicle publisher setup env config journal) (sound : Sound journal)
include valid chronicle sound

lemma plan_settles [Unrenamed publisher] (idle : journal.process = .up done .idle)
    (called : (publisher.source setup).planBatch input journal.source = (result,state)) :
    Settles setup journal done state := by
  by_cases finished : Finished setup journal.positions done
  · have complete := ((chronicle.up idle).following finished).complete
    exact .inl (plan_sends chronicle.tracks ⟨complete,.inr valid.tables⟩ called).point
  · exact .inr ⟨finished,chronicle.no_stretch sound idle finished⟩

lemma poll_settles [Unrenamed publisher] (idle : journal.process = .up done .idle)
    (there : journal.ranges[done]? = some range)
    (called : (publisher.source setup).pollRange input range journal.source = (result,state)) :
    Settles setup journal done state := by
  rcases chronicle.shaped done range there with ⟨reading,_⟩ | ⟨finished,first,last,rfl,recorded,_⟩
  · exact .inr ⟨reading,chronicle.no_stretch sound idle reading⟩
  · have complete := ((chronicle.up idle).following finished).complete
    exact .inl (poll_sends chronicle.tracks ⟨complete,.inr valid.tables⟩ recorded called).point

end Calls

lemma land_ids {held : List (Nat × List RecordBatch)} (ids : held.Pairwise fun one other => one.1 < other.1) :
    (land held batchId rows).Pairwise fun one other => one.1 < other.1 := by
  unfold land Sink.writeBatch
  split
  · exact ids
  · next new =>
    refine pairwise_append.mpr ⟨ids,pairwise_singleton _ _,fun one mem other last => ?_⟩
    rw [mem_singleton.mp last]
    have := Sink.le_highest ⟨"",held⟩ mem
    omega

end Steps
end Delivered

section Runs
lemma Sequenced.runs [Unrenamed publisher] (valid : setup.Valid)
    (step : Step (restrict (environment publisher setup plan violations mayFail) good) config journal
        .running after)
    (sound : Sound journal)
    (chronicle : Chronicle publisher setup (environment publisher setup plan violations mayFail) config journal)
    (sequenced : Sequenced publisher setup journal) (whole : Whole publisher setup journal) :
    Sequenced publisher setup after ∧ Whole publisher setup after := by
  have kept : Settles setup journal 0 journal.source := .inl rfl
  cases step with
  | crash => exact ⟨sequenced.sourced kept _,.busy (fun _ here => by cases here) rfl⟩
  | abandon => exact ⟨sequenced.sourced kept _,.busy (fun _ here => by cases here) rfl⟩
  | plan up last input =>
    have settles := plan_settles valid chronicle sound up
      (show (publisher.source setup).planBatch input.1 journal.source = _ from rfl)
    exact ⟨sequenced.sourced settles _,whole.sourced up settles⟩
  | record up last input answer some =>
    have settles := plan_settles valid chronicle sound up
      (show (publisher.source setup).planBatch input.1 journal.source = _ from rfl)
    have whole := whole.sourced up settles
    refine ⟨⟨sequenced.ids,fun place first stop there => ?_⟩,whole⟩
    have recorded := chronicle.runs valid (.record up last input answer some) sound
    rcases recorded.shaped place _ there with ⟨_,_,_,other,_⟩ | ⟨finished,_⟩
    · exact absurd other lsnRange_ne_snapshotRange
    · have inside : place < (journal.ranges ++ [_]).length := (List.getElem?_eq_some_iff.mp there).1
      rw [length_append,length_singleton] at inside
      exact whole _ up (chronicle.settled place _ finished (by omega) (sound.up _ _ up).2.1)
  | miss up there input answer =>
    have settles := poll_settles valid chronicle sound up there
      (show (publisher.source setup).pollRange input.1 _ journal.source = _ from rfl)
    exact ⟨sequenced.sourced settles _,whole.sourced up settles⟩
  | poll up there input answer =>
    have settles := poll_settles valid chronicle sound up there
      (show (publisher.source setup).pollRange input.1 _ journal.source = _ from rfl)
    exact ⟨sequenced.sourced settles _,.busy (fun _ here => by cases here) rfl⟩
  | skip => exact ⟨sequenced.sourced kept _,.busy (fun _ here => by cases here) rfl⟩
  | write up some prepares acknowledged =>
    refine ⟨⟨land_ids sequenced.ids,sequenced.undivided⟩,.busy (fun _ here => ?_) rfl⟩
    cases acknowledged <;> cases here
  | commit up acknowledged =>
    refine ⟨⟨sequenced.ids,sequenced.undivided⟩,.busy (fun _ here => ?_) rfl⟩
    cases acknowledged <;> cases here
  | save up acknowledged =>
    refine ⟨⟨sequenced.ids,sequenced.undivided⟩,.busy (fun _ here => ?_) rfl⟩
    cases acknowledged <;> cases here
  | durable up input =>
    have point := (durable_sends chronicle.tracks
      (show (publisher.source setup).markDurable input.1 journal.source = _ from rfl)).1
    exact ⟨@Sequenced.sourced _ _ _ 0 _ sequenced (.inl point) _,.busy (fun _ here => by cases here) rfl⟩

lemma Sequenced.starts (sequenced : Sequenced publisher setup journal)
    (step : Step (restrict (environment publisher setup plan violations mayFail) good) config journal
        .starting after) :
    Sequenced publisher setup after := by
  cases step with
  | crash | build | recover => exact ⟨sequenced.ids,sequenced.undivided⟩
  | start =>
    have server : (journal.resume.elim journal.source
        ((publisher.source setup).restoreOffsets · journal.source)).server = journal.source.server := by
      cases journal.resume <;> rfl
    exact @Sequenced.sourced _ _ _ 0 _ sequenced (.inl (congrArg Server.point server)) _

/-- The stream is read where the slot's point divides no transaction. A start finds the end of the
commit log. -/
def Undividing (publisher : Publisher) (setup : Setup) : Sys State → Action (List WireChoice) → Prop
  | ⟨world,some _⟩,.batch _ => setup.tables.length ≤ world.source.self.snapshotDone →
      Undivided publisher setup world.source.server.point
  | ⟨world,_⟩,.start _ _ => (world.disk.commits
      (world.disk.committed + StreamingQueryManager.maxRecovered + 1)).isNone = true
  | _,_ => True

instance : (sys : Sys State) → (action : Action (List WireChoice)) → Decidable (Undividing publisher setup sys action)
  | ⟨_,some _⟩,.batch _ => inferInstanceAs (Decidable (_ → _))
  | ⟨_,some _⟩,.start _ _ | ⟨_,none⟩,.start _ _ => inferInstanceAs (Decidable (_ = true))
  | ⟨_,none⟩,.batch _ | ⟨_,some _⟩,.stop | ⟨_,none⟩,.stop | ⟨_,some _⟩,.crash | ⟨_,none⟩,.crash => .isTrue trivial

lemma Sequenced.kept [Unrenamed publisher] (valid : setup.Valid) (reads : mayFail .getOffsets = false)
    (below : LogPruning.PrunesBelow sys action) (undividing : Undividing publisher setup sys action)
    (presents : Presents config sys journal)
    (chronicle : Chronicle publisher setup (environment publisher setup plan violations mayFail) config journal)
    (sequenced : Sequenced publisher setup journal) :
    ∃ after, Presents config (sys.step (environment publisher setup plan violations mayFail) config action) after ∧
      Chronicle publisher setup (environment publisher setup plan violations mayFail) config after ∧
      Sequenced publisher setup after := by
  have rested {last : Journal State} (sequenced : Sequenced publisher setup last) :
      Sequenced publisher setup last.rest := ⟨sequenced.ids,sequenced.undivided⟩
  obtain ⟨world,query⟩ := sys
  refine action_kept reads below presents ⟨chronicle,sequenced⟩
    ⟨chronicle.crashes,sequenced.ids,sequenced.undivided⟩ (fun id choices same => ?_)
    fun rt choices up same => ?_
  · subst same
    have walkable := walkable_of_ends presents (by cases query <;> exact undividing)
    exact ⟨fun journal => Walkable journal ∧
        Chronicle publisher setup (environment publisher setup plan violations mayFail) config journal ∧
          Sequenced publisher setup journal,⟨walkable,chronicle,sequenced⟩,
      fun before after step sound ⟨walkable,chronicle,sequenced⟩ =>
        have ⟨reachable,kept⟩ := chronicle.starts valid step sound walkable
        ⟨reachable,kept,sequenced.starts step⟩,
      fun last ⟨_,chronicle,sequenced⟩ => ⟨chronicle.rest,rested sequenced⟩⟩
  · cases up
    subst same
    have whole : Whole publisher setup journal := by
      intro done here finished
      rw [← presents.shows_.source]
      apply undividing
      rw [presents.shows_.source]
      exact ((chronicle.up here).following finished).complete
    exact ⟨fun _ => True,fun journal =>
        Chronicle publisher setup (environment publisher setup plan violations mayFail) config journal ∧
          Sequenced publisher setup journal ∧ Whole publisher setup journal,fun _ _ => trivial,
      ⟨chronicle,sequenced,whole⟩,
      fun before after step sound ⟨chronicle,sequenced,whole⟩ =>
        ⟨chronicle.runs valid step sound,sequenced.runs valid step sound chronicle whole⟩,
      fun last ⟨chronicle,sequenced,_⟩ => ⟨chronicle.rest,rested sequenced⟩⟩

end Runs

/-- Every change outranks the snapshot and the earlier changes of its key, if the resume record is
read and pruned below, starts find the end of the commit log and the stream is read from a point
that divides no transaction. -/
theorem changes_outrank (publisher : Publisher) [Unrenamed publisher] (setup : Setup) (valid : setup.Valid)
    {κ : Type} (key : List (Option Scalar) → κ) (ordered : KeyOrdered publisher setup key)
    (violations : String → List RecordBatch → Nat) (mayFail : Oxidant.Streaming.Request → Bool)
    (config : QueryConfig) (whole : config.dedupColumns.isEmpty = true) (reads : mayFail .getOffsets = false)
    (server : Server) (bounded : Bounded server) (actions : List (Action (List WireChoice)))
    (below : Sys.Meets (environment publisher setup id violations mayFail) config LogPruning.PrunesBelow
        (initially ⟨{},server⟩) actions)
    (undividing : Sys.Meets (environment publisher setup id violations mayFail) config (Undividing publisher setup)
        (initially ⟨{},server⟩) actions) :
    Ranked setup key
      ((initially ⟨{},server⟩).run (environment publisher setup id violations mayFail) config actions).world := by
  have none : Sequenced publisher setup {source := ⟨{},server⟩} :=
    ⟨.nil,fun _ _ _ there => by simp at there⟩
  obtain ⟨journal,presents,chronicle,sequenced⟩ := presents_run (fun sys action journal met presents held =>
      Sequenced.kept valid reads met.1 met.2 presents held.1 held.2)
    (Sys.meets_and below undividing) (presents_initially _)
    (And.intro (chronicle_initially bounded) none)
  exact sequenced.ranked chronicle presents.sound rfl whole ordered presents.shows_

namespace Sample

def filled : Publisher := {publisher with tableAt := fun _ _ => [[some "1"]]}

instance : Unrenamed filled := ⟨by decide⟩

def snapshotAt (point : Nat) : List (Action (List WireChoice)) :=
  [.start ⟨"query","run"⟩ (answered 7 []),.batch (answered 20 ({point}::List.replicate 8 {})),
   .batch (answered 20 (List.replicate 8 {serverFlush := 10}))]

def filledWorld : Environment State (List WireChoice) :=
  environment filled setup id (fun _ _ => 0) LogPruning.savesMayFail

lemma filled_ordered : KeyOrdered filled setup id := by
  have increasing : (filled.log.flatMap (·.changes)).Pairwise fun one other =>
      one.walStart < other.walStart := by decide
  have single : ∀ change ∈ filled.log.flatMap (·.changes), (change.events setup).length ≤ 1 := by decide
  constructor
  · apply increasing.imp
    intro one other less event _ next _ _
    exact less
  · intro change mem
    have few := single change mem
    match change.events setup,few with
    | [],_ => exact .nil
    | [_],_ => exact pairwise_singleton _ _

end Sample

theorem earlier_point_outranked :
    Ranked Sample.setup id
      ((initially ⟨{},{}⟩).run Sample.filledWorld RateReplay.passThrough (Sample.snapshotAt 3)).world :=
  changes_outrank Sample.filled Sample.setup ⟨by decide,by decide,by decide⟩ id Sample.filled_ordered
    (fun _ _ => 0) LogPruning.savesMayFail RateReplay.passThrough rfl rfl {} ⟨by decide,by decide⟩
    (Sample.snapshotAt 3) (by decide) (by decide)

/-- A snapshot taken at 7 is stamped 6; a change written at 5 is delivered after it and does not
outrank it. -/
theorem divided_not_outranked :
    Sys.Meets Sample.filledWorld RateReplay.passThrough LogPruning.PrunesBelow (initially ⟨{},{}⟩)
      (Sample.snapshotAt 7) ∧
    ¬ Ranked Sample.setup id
      ((initially ⟨{},{}⟩).run Sample.filledWorld RateReplay.passThrough (Sample.snapshotAt 7)).world := by
  refine ⟨by decide,fun ranked => ?_⟩
  generalize reached : ((initially ⟨{},{}⟩).run Sample.filledWorld RateReplay.passThrough
    (Sample.snapshotAt 7)).world = final at ranked
  let stamped (op : String) (lsn : Int) (ts : Option Scalar) : Row :=
    [some (.text "1"),some (.text op),some (.int lsn),ts]
  have snapshot : stamped "s" 6 none ∈ sinkRows final := by
    rw [← reached]
    decide +kernel
  have change : stamped "i" 5 (some (.int 946684800000005)) ∈ sinkRows final := by
    rw [← reached]
    decide +kernel
  have outranks := ranked.snapshot _ snapshot _ change (by decide) (by decide)
  revert outranks
  unfold Outranks
  decide

end Oxidant.Cdc
