import Oxidant.Cdc.Confirmations
import Oxidant.LogPruning

/-! Confirmed positions against durable data: in every run, whatever committed up to a position that
was confirmed is in the sink, in a batch that the saved checkpoint is past. -/
namespace Oxidant.Cdc
open Lib Oxidant.Streaming Oxidant.Streaming.Journal JournalRefinement BatchProtocol PostgresCdcSource List Option

section Durable
variable (publisher : Publisher) (setup : Setup) {χ : Type} (env : Environment State χ) (config : QueryConfig)

/-- The sink has the rows that the query made of batches of a range, and the saved checkpoint is past
their batch. -/
def InSink (world : World State) (range : BatchRange) (polled : List RecordBatch → Prop) : Prop :=
  ∃ place < world.disk.committed, world.history[place]? = some range ∧ ∃ rows batches,
    (place + 1,rows) ∈ world.sink.held ∧ polled batches ∧ Prepares env config batches rows

/-- Every change of a transaction up to the position is in the sink, with its stretch of the stream
or with the snapshot of every table. -/
def Durable (world : World State) (lsn : Nat) : Prop :=
  ∀ txn ∈ publisher.log, txn.endLsn ≤ lsn → txn.events setup ≠ [] →
    (∃ first last, first < txn.endLsn ∧ txn.endLsn ≤ last ∧
      InSink env config world (lsnRange first last) fun batches =>
        setup.buildBatches (publisher.eventsIn setup first last) = .ok batches) ∨
    txn.endLsn ≤ world.source.server.point ∧ ∀ index table, setup.tables[index]? = some table →
      publisher.tableAt world.source.server.point table = [] ∨
      InSink env config world (snapshotRange index world.source.server.point)
        (Sliced setup world.source.server.point (publisher.tableAt world.source.server.point table))

end Durable

section Kept
lemma Follow.covers (follow : Follow publisher setup first spans last)
    (mem : txn ∈ publisher.log) (some : txn.events setup ≠ []) (past : first < txn.endLsn)
    (within : txn.endLsn ≤ last) : ∃ span ∈ spans, span.1 < txn.endLsn ∧ txn.endLsn ≤ span.2 := by
  induction spans generalizing first with
  | nil => exact absurd follow.2 (Publisher.eventsIn_ne_nil.mpr ⟨txn,mem,past,within,some⟩)
  | cons span rest ih =>
    obtain ⟨_,silent,_,follow⟩ := follow
    rcases lt_or_ge span.1 txn.endLsn with later | before
    · rcases lt_or_ge span.2 txn.endLsn with beyond | inside
      · obtain ⟨found,among,covers⟩ := ih follow beyond
        exact ⟨found,mem_cons_of_mem _ among,covers⟩
      · exact ⟨span,mem_cons_self,later,inside⟩
    · exact absurd silent (Publisher.eventsIn_ne_nil.mpr ⟨txn,mem,past,before,some⟩)

lemma lsnRange_ne_snapshotRange : lsnRange first last ≠ snapshotRange index point := by
  intro same
  have keys := congrArg (·.start[snapshotKey]?) same
  simp only [lsnRange_snapshot,snapshotRange_index] at keys
  cases keys

lemma snapshotRange_inj {index other point planned : Nat} (small : index < 2^63)
    (few : other < 2^63) (low : point < 2^63) (below : planned < 2^63)
    (same : snapshotRange index point = snapshotRange other planned) :
    index = other ∧ point = planned := by
  have keys := congrArg (·.start[snapshotKey]?) same
  have points := congrArg (·.start[consistentPointKey]?) same
  simp only [snapshotRange_index,snapshotRange_point,Option.some.injEq] at keys points
  exact ⟨Lsn.asI64_inj small few keys,Lsn.asI64_inj low below points⟩

section Backed
lemma Chronicle.stretch_held (chronicle : Chronicle publisher setup env config journal)
    (there : journal.ranges[place]? = some (lsnRange first last))
    (recorded : Recorded publisher setup first last) (landed : Landed publisher setup journal place)
    :
    ∃ rows batches, (place + 1,rows) ∈ journal.held ∧
      setup.buildBatches (publisher.eventsIn setup first last) = .ok batches ∧
      Prepares env config batches rows := by
  have reads {point : Nat} {batches : List RecordBatch}
      (carries : Carries publisher setup point (lsnRange first last) batches) :
      setup.buildBatches (publisher.eventsIn setup first last) = .ok batches := by
    rcases carries with ⟨first',last',same,recorded',built⟩ | ⟨index,planned,table,same,_⟩
    · obtain ⟨rfl,rfl⟩ := recorded.unique recorded' same
      exact built
    · exact absurd same lsnRange_ne_snapshotRange
  rcases landed with ⟨rows,mem⟩ | ⟨range,point,batches,there',_,carries,empty⟩
  · obtain ⟨range,point,batches,there',_,carries,prepares⟩ := chronicle.held _ mem
    cases there.symm.trans there'
    exact ⟨rows,batches,mem,reads carries,prepares⟩
  · cases there.symm.trans there'
    have total := buildBatches_rows (reads carries)
    rw [empty] at total
    exact absurd (eq_nil_of_length_eq_zero total.symm) recorded.some

lemma Carries.sliced (valid : setup.Valid) {point planned index : Nat}
    (carries : Carries publisher setup point (snapshotRange index planned) batches)
    (below : point ≤ planned) (small : index < setup.tables.length) (limit : planned ≤ lsnLimit) :
    ∃ table, setup.tables[index]? = some table ∧ Sliced setup planned (publisher.tableAt planned table) batches := by
  have addressable := valid.addressable
  unfold lsnLimit at limit
  rcases carries with ⟨first,last,same,_⟩ | ⟨index',planned',table,same,later,found,sliced⟩
  · exact absurd same.symm lsnRange_ne_snapshotRange
  · have inside : index' < setup.tables.length := (List.getElem?_eq_some_iff.mp found).1
    obtain ⟨rfl,rfl⟩ := snapshotRange_inj (by omega) (by omega) (by omega) (by omega) same
    obtain rfl : point = planned := le_antisymm below later
    exact ⟨table,found,sliced⟩

lemma Chronicle.table_held (valid : setup.Valid) (chronicle : Chronicle publisher setup env config journal)
    {place index : Nat} (found : setup.tables[index]? = some table)
    (there : journal.ranges[place]? = some (snapshotRange index journal.source.server.point))
    (landed : Landed publisher setup journal place) :
    publisher.tableAt journal.source.server.point table = [] ∨
    ∃ rows batches, (place + 1,rows) ∈ journal.held ∧
      Sliced setup journal.source.server.point (publisher.tableAt journal.source.server.point table) batches ∧
      Prepares env config batches rows := by
  have small : index < setup.tables.length := (List.getElem?_eq_some_iff.mp found).1
  have reads {point : Nat} (below : point ≤ journal.source.server.point) {batches : List RecordBatch}
      (carries : Carries publisher setup point (snapshotRange index journal.source.server.point) batches) :
      Sliced setup journal.source.server.point (publisher.tableAt journal.source.server.point table) batches := by
    obtain ⟨_,found',sliced⟩ := carries.sliced valid below small (chronicle.shown.trans chronicle.limit)
    cases found.symm.trans found'
    exact sliced
  rcases landed with ⟨rows,mem⟩ | ⟨range,point,batches,there',below,carries,empty⟩
  · obtain ⟨range,point,batches,there',below,carries,prepares⟩ := chronicle.held _ mem
    cases there.symm.trans there'
    exact .inr ⟨rows,batches,mem,reads below carries,prepares⟩
  · cases there.symm.trans there'
    have total := (reads below carries).rows
    rw [empty] at total
    exact .inl (eq_nil_of_length_eq_zero total.symm)

lemma Backed.durable (valid : setup.Valid)
    (chronicle : Chronicle publisher setup env config journal) (sound : Sound journal)
    (backed : Backed publisher setup journal lsn) (shows_ : Shows world journal) :
    Durable publisher setup env config world lsn := by
  obtain ⟨_,count,few,position,past,passed,follows⟩ := backed
  have recorded := sound.recorded
  have committed := shows_.committed
  intro txn mem ends some
  have held (range : BatchRange) (among : range ∈ journal.ranges.take count) :
      ∃ place < world.disk.committed, journal.ranges[place]? = Option.some range ∧
        world.history[place]? = Option.some range ∧ Landed publisher setup journal place := by
    obtain ⟨place,there⟩ := getElem?_of_mem among
    have inside : place < count := by
      have := (List.getElem?_eq_some_iff.mp there).1
      rw [length_take] at this
      omega
    rw [getElem?_take_of_lt inside] at there
    refine ⟨place,by omega,there,?_,chronicle.landed place (by omega)⟩
    rw [shows_.history,getElem?_take_of_lt (by omega)]
    exact there
  rw [shows_.source]
  rcases lt_or_ge journal.source.server.point txn.endLsn with later | before
  · obtain ⟨span,among,lower,upper⟩ := follows.covers mem some later (by omega)
    obtain ⟨range,among,same⟩ := mem_filterMap.mp among
    obtain ⟨place,small,there,history,landed⟩ := held range among
    rcases chronicle.shaped place range there with
      ⟨_,index,planned,rfl,_⟩ | ⟨_,first,last,rfl,recorded,_⟩
    · rw [spanOf_snapshotRange] at same
      cases same
    · have low := recorded.lt
      have top := recorded.small
      rw [spanOf_lsnRange (by omega) top] at same
      cases same
      obtain ⟨rows,batches,held,built,prepares⟩ := chronicle.stretch_held there recorded landed
      exact .inl ⟨first,last,lower,upper,place,small,history,rows,batches,shows_.held ▸ held,built,prepares⟩
  · refine .inr ⟨before,fun index table found => ?_⟩
    obtain ⟨place,small,there,history,landed⟩ :=
      held _ (passed index (List.getElem?_eq_some_iff.mp found).1)
    apply (chronicle.table_held valid found there landed).imp id
    rintro ⟨rows,batches,held,sliced,prepares⟩
    exact ⟨place,small,history,rows,batches,shows_.held ▸ held,sliced,prepares⟩

end Backed

/-- A batch was read whose checkpoint is not saved: the query is ahead of the resume record, or the
source is at the end of a range to be read again. -/
def Awaiting (world : World State) (rt : QueryRuntime) : Prop :=
  rt.batchId ≠ world.disk.committed ∨ (world.disk.planned (rt.batchId + 1)).bind (·.end[lsnKey]?) =
      some (Lsn.asI64 world.source.self.position)

instance (world : World State) (rt : QueryRuntime) : Decidable (Awaiting world rt) :=
  inferInstanceAs (Decidable (_ ∨ _))

/-- A batch that awaits its checkpoint is not asked for a status update. A start finds the end of
the commit log. -/
def Unasked : Sys State → Action (List WireChoice) → Prop
  | ⟨world,some rt⟩,.batch choices => Awaiting world rt → ∀ choice ∈ choices, Calm choice.input
  | ⟨world,_⟩,.start _ _ => (world.disk.commits
      (world.disk.committed + StreamingQueryManager.maxRecovered + 1)).isNone = true
  | _,_ => True

instance (choices : List WireChoice) : Decidable (Calm choices) :=
  inferInstanceAs (Decidable (∀ choice ∈ choices, choice.solicits = false))

instance (sys : Sys State) (action : Action (List WireChoice)) : Decidable (Unasked sys action) := by
  unfold Unasked
  split <;> infer_instance

section Runs
lemma chronicle_initially (bounded : Bounded server) :
    Chronicle publisher setup env config {source := ⟨{},server⟩} where
  tracks := Tracks.fresh publisher setup server ⟨"",∅⟩
  shown := bounded.shown
  limit := bounded.limit
  shaped _ _ none := by simp at none
  marks _ _ none := by simp at none
  settled place later finished _ _ := by
    obtain _ | place := place
    · exact finished.elim
    · obtain ⟨offsets,there,_⟩ := finished
      simp at there
  held _ none := by cases none
  landed _ none := by cases none
  standing := trivial

lemma walkable_of_ends (presents : Presents config sys journal)
    (ends : (sys.world.disk.commits (sys.world.disk.committed + StreamingQueryManager.maxRecovered + 1)).isNone =
        true) :
    Walkable journal := by
  have shows_ := presents.shows_
  have none := shows_.commits (journal.recorded + StreamingQueryManager.maxRecovered + 1) (by omega)
  rw [← shows_.committed,isNone_iff_eq_none.mp ends,map_none,shows_.committed] at none
  have length := getElem?_eq_none_iff.mp none.symm
  unfold Walkable
  split
  · next walked here =>
    have process := presents.process
    cases query : sys.query <;> rw [query,here] at process <;> cases process
  · omega

lemma ready_of_settled (presents : Presents config ⟨world,some rt⟩ journal)
    (chronicle : Chronicle publisher setup env config journal) :
    Ready publisher setup (Awaiting world rt) journal := by
  refine Classical.or_iff_not_imp_left.mpr fun waits done here finished => ?_
  have up : journal.process = .up rt.batchId .idle := presents.process
  cases here.symm.trans up
  obtain ⟨batch,apart⟩ := not_or.mp waits
  have same : journal.recorded = rt.batchId := by
    rw [← presents.shows_.committed]
    exact (Classical.not_not.mp batch).symm
  refine ⟨same,?_⟩
  rcases ((chronicle.up here).following finished).stands with ⟨first,last,there,atEnd⟩ | reached
  · refine absurd ?_ apart
    rw [presents.shows_.planned _ (by omega),presents.shows_.source,Nat.add_sub_cancel,there,
      bind_some,lsnRange_end,atEnd]
  · exact reached

lemma Confirming.kept [Unrenamed publisher] (valid : setup.Valid) (reads : mayFail .getOffsets = false)
    (below : LogPruning.PrunesBelow sys action) (unasked : Unasked sys action)
    (presents : Presents config sys journal)
    (chronicle : Chronicle publisher setup (environment publisher setup plan violations mayFail) config journal)
    (confirming : Confirming publisher setup True journal) :
    ∃ after, Presents config (sys.step (environment publisher setup plan violations mayFail) config action) after ∧
      Chronicle publisher setup (environment publisher setup plan violations mayFail) config after ∧
      Confirming publisher setup True after := by
  have rested {awaiting : Prop} {last : Journal State}
      (confirming : Confirming publisher setup awaiting last) :
      Confirming publisher setup True last.rest := ⟨confirming.backed,.inl trivial⟩
  obtain ⟨world,query⟩ := sys
  refine action_kept reads below presents ⟨chronicle,confirming⟩
    ⟨chronicle.crashes,confirming.moved _ nofun⟩ (fun id choices same => ?_)
    fun rt choices up same => ?_
  · subst same
    have walkable := walkable_of_ends presents (by cases query <;> exact unasked)
    exact ⟨fun journal => Walkable journal ∧
        Chronicle publisher setup (environment publisher setup plan violations mayFail) config journal ∧
          Confirming publisher setup True journal,⟨walkable,chronicle,confirming⟩,
      fun before after step sound ⟨walkable,chronicle,confirming⟩ =>
        have ⟨reachable,kept⟩ := chronicle.starts valid step sound walkable
        ⟨reachable,kept,confirming.starts step chronicle⟩,
      fun last ⟨_,chronicle,confirming⟩ => ⟨chronicle.rest,rested confirming⟩⟩
  · cases up
    subst same
    exact ⟨fun input => Awaiting world rt → Calm input,fun journal =>
        Chronicle publisher setup (environment publisher setup plan violations mayFail) config journal ∧
          Confirming publisher setup (Awaiting world rt) journal,
      fun choice among waits => unasked waits choice among,
      ⟨chronicle,confirming.backed,ready_of_settled presents chronicle⟩,
      fun before after step sound ⟨chronicle,confirming⟩ =>
        ⟨chronicle.runs valid step sound,confirming.runs valid step sound chronicle⟩,
      fun last ⟨chronicle,confirming⟩ => ⟨chronicle.rest,rested confirming⟩⟩

end Runs
end Kept

/-- Every position confirmed to the server is durable, if the resume record is read and pruned
below, starts find the end of the commit log and no batch that awaits its checkpoint is asked for a
status update. -/
theorem confirmed_durable (publisher : Publisher) [Unrenamed publisher] (setup : Setup) (valid : setup.Valid)
    (plan : List RecordBatch → List RecordBatch) (violations : String → List RecordBatch → Nat)
    (mayFail : Oxidant.Streaming.Request → Bool) (config : QueryConfig) (reads : mayFail .getOffsets = false)
    (server : Server) (bounded : Bounded server) (fresh : server.confirmed = [])
    (actions : List (Action (List WireChoice)))
    (below : Sys.Meets (environment publisher setup plan violations mayFail) config LogPruning.PrunesBelow
        (initially ⟨{},server⟩) actions)
    (unasked : Sys.Meets (environment publisher setup plan violations mayFail) config Unasked
        (initially ⟨{},server⟩) actions) :
    let world := ((initially ⟨{},server⟩).run (environment publisher setup plan violations mayFail)
      config actions).world
    ∀ lsn ∈ world.source.server.confirmed, Durable publisher setup
      (environment publisher setup plan violations mayFail) config world lsn := by
  have none : Confirming publisher setup True {source := ⟨{},server⟩} := by
    refine ⟨fun lsn mem => ?_,.inl trivial⟩
    rw [fresh] at mem
    cases mem
  obtain ⟨journal,presents,chronicle,confirming⟩ := presents_run (fun sys action journal met presents held =>
      Confirming.kept valid reads met.1 met.2 presents held.1 held.2)
    (Sys.meets_and below unasked) (presents_initially _) (And.intro (chronicle_initially bounded) none)
  intro world lsn mem
  rw [presents.shows_.source] at mem
  exact (confirming.backed lsn mem).durable valid chronicle presents.sound presents.shows_

namespace Sample

def world : Environment State (List WireChoice) :=
  environment publisher setup id (fun _ _ => 0) LogPruning.savesMayFail

def answered (count : Nat) (input : List WireChoice) : List (Choice (List WireChoice)) :=
  List.replicate count {input}

def refused : List (Action (List WireChoice)) :=
  [.start ⟨"query","run"⟩ (answered 7 []),.batch (answered 20 (List.replicate 8 {})),
   .batch (answered 4 (List.replicate 8 {serverFlush := 10}) ++
     List.replicate 4 {fault := some ⟨.io "503",false⟩,input := []})]

def rewritten : List (Action (List WireChoice)) :=
  refused ++ [.batch (answered 20 (List.replicate 8 {}))]

def asked : List (Action (List WireChoice)) :=
  refused ++ [.batch [{input := []},{input := [{},{pace := .keepalive 0 true},{}]}]]

end Sample

theorem rewritten_durable :
    Durable Sample.publisher Sample.setup Sample.world RateReplay.passThrough
      ((initially ⟨{},{}⟩).run Sample.world RateReplay.passThrough Sample.rewritten).world 10 :=
  confirmed_durable Sample.publisher Sample.setup ⟨by decide,by decide,by decide⟩ id (fun _ _ => 0)
    LogPruning.savesMayFail RateReplay.passThrough rfl {} ⟨by decide,by decide⟩ rfl Sample.rewritten
    (by decide +kernel) (by decide +kernel) 10 (by decide +kernel)

theorem asked_not_durable :
    Sys.Meets Sample.world RateReplay.passThrough LogPruning.PrunesBelow (initially ⟨{},{}⟩)
      Sample.asked ∧
    let world := ((initially ⟨{},{}⟩).run Sample.world RateReplay.passThrough Sample.asked).world
    10 ∈ world.source.server.confirmed ∧
      ¬ Durable Sample.publisher Sample.setup Sample.world RateReplay.passThrough world 10 := by
  refine ⟨by decide +kernel,by decide +kernel,?_⟩
  generalize reached : ((initially ⟨{},{}⟩).run Sample.world RateReplay.passThrough Sample.asked).world = final
  have empty : final.sink.held.isEmpty = true := by
    rw [← reached]
    decide +kernel
  have point : final.source.server.point = 0 := by
    rw [← reached]
    decide +kernel
  intro durable
  rcases durable Sample.twoInserts mem_cons_self le_rfl (by decide) with
    ⟨_,_,_,_,_,_,_,rows,_,mem,_⟩ | ⟨before,_⟩
  · rw [isEmpty_iff.mp empty] at mem
    cases mem
  · rw [point] at before
    exact absurd before (by decide)

end Oxidant.Cdc
