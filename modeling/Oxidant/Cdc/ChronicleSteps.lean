import Oxidant.Cdc.Chronicle

/-! Each step of the journal keeps the chronicle, whatever the wire does meanwhile. -/
namespace Oxidant.Cdc
open List hiding after count range
open Lib Oxidant.Streaming Oxidant.Streaming.Journal JournalRefinement PostgresCdcSource

variable {publisher : Publisher}

section Bounds

structure Bounded (server : Server) : Prop where
  shown : server.point ≤ server.shown
  limit : server.shown ≤ lsnLimit

lemma Bounded.later (bounded : Bounded server) (small : place ≤ lsnLimit) (after)
    (point : after.point = server.point) (shown : after.shown = max server.shown place) :
    Bounded after := by
  obtain ⟨first,second⟩ := bounded
  exact ⟨by omega,by omega⟩

lemma sentUpTo_le : publisher.sentUpTo session walEnd ≤ lsnLimit := by
  unfold Publisher.sentUpTo
  split
  · exact min_le_right _ _
  · next txn _ =>
    have := txn.small
    unfold lsnLimit
    omega

lemma next_le (found : publisher.next session = some (frame,endLsn,after)) : endLsn ≤ lsnLimit := by
  unfold Publisher.next at found
  unfold lsnLimit
  split at found
  · cases found
  · next txn _ =>
    have := txn.small
    split at found
    · cases found
      omega
    · cases found
      omega
    · split at found
      · cases found
        omega
      · cases found
        omega

structure Since (least : Nat) (server : Server) : Prop extends Bounded server where
  since : least ≤ server.point

lemma perform_since (before : Since least server) (same : Since least after) :
    Since least (Publisher.perform choice server value after).2 := by
  rcases perform_cases choice server after value with done | ⟨e,failed⟩
  · rw [done]
    exact same
  · rw [failed]
    exact {before with}

lemma answer_since (before : Since least server) :
    Since least (publisher.answer setup choice server request).2 := by
  obtain ⟨bounded,since⟩ := id before
  cases request with
  | openSlot create =>
    dsimp only [Publisher.answer]
    unfold Publisher.openSlot
    split
    · exact before
    · exact {before with}
    · exact before
    · have shown := bounded.shown
      exact ⟨⟨le_rfl,Nat.max_le.mpr ⟨Nat.min_le_right _ _,bounded.limit⟩⟩,by dsimp only [Publisher.drop]; omega⟩
  | snapshotOpen | snapshotFetch | snapshotClose | endSnapshot | startStream =>
    exact perform_since before {before with}
  | nextWire =>
    dsimp only [Publisher.answer]
    rcases nextWire_cases publisher choice server with
      ⟨e,⟨_,same⟩ | same⟩ | ⟨_,same | same | ⟨session,walEnd,replyRequested,_,_,same⟩ |
        ⟨session,frame,endLsn,after,_,found,same⟩⟩
    · rw [same]
      exact before
    · rw [same]
      exact {before with}
    · rw [same]
      exact before
    · rw [same]
      exact {before with}
    · rw [same]
      exact ⟨bounded.later (sentUpTo_le) _ rfl rfl,since⟩
    · rw [same]
      exact ⟨bounded.later (next_le found) _ rfl rfl,since⟩
  | confirm written flushed =>
    dsimp only [Publisher.answer]
    rcases confirm_cases choice flushed server with
      (⟨sent,same⟩ | ⟨sent,same⟩) | ⟨e,confirmed,_,same⟩
    · rw [same]
      exact before
    · rw [same]
      exact {before with}
    · rw [same]
      exact {before with}
  | slotMetrics =>
    dsimp only [Publisher.answer]
    split <;> exact before
  | statusElapsed => exact before

lemma call_since (method : Nat → Method α) (input) (bounded : Bounded state.server) :
    Since state.server.point (publisher.call setup method input state).2.server :=
  Prog.exec_keeps (fun wire : Wire => Since state.server.point wire.server)
    (fun _ _ held => answer_since held) _ ⟨input,state.server⟩ ⟨bounded,le_rfl⟩

lemma call_bounded {α : Type} (method : Nat → Method α) (input) {state : State}
    (bounded : Bounded state.server) : Bounded (publisher.call setup method input state).2.server :=
  (call_since method input bounded).toBounded

lemma poll_bounded {state after : State} (bounded : Bounded state.server) {result : Except Error (List RecordBatch)}
    (called : (publisher.source setup).pollRange input range state = (result,after)) :
    Bounded after.server := by
  have kept := @call_bounded publisher setup _ (fun room => pollRange setup room range) input state bounded
  change publisher.call setup (fun room => pollRange setup room range) input state = _ at called
  rwa [called] at kept

end Bounds

section Moves
variable {env : Environment State χ}

lemma Shaped.append {point place : Nat} {ranges : List BatchRange}
    {positions : List (Option SourceOffsets)} {range : BatchRange} (inside : place ≤ ranges.length)
    (more) (shaped : Shaped publisher setup point ranges positions place range) :
    Shaped publisher setup point (ranges ++ more) positions place range := by
  rcases shaped with ⟨unfinished,index,planned,same,small,below,others⟩ | ⟨finished,first,last,same,recorded,reached⟩
  · refine .inl ⟨unfinished,index,planned,same,small,below,fun other less => ?_⟩
    rw [take_append_of_le_length inside]
    exact others other less
  · exact .inr ⟨finished,first,last,same,recorded,reached.append inside more⟩

/-- A call that begins while the snapshot is read leaves the slot, or a new one at which the
snapshot begins again. -/
structure Slot (setup : Setup) (journal : Journal State) (source : PostgresCdcSource) (point : Nat) :
    Prop where
  position : Slotted setup source → source.position = point
  passed : Slotted setup source → ∀ index < source.snapshotDone,
    snapshotRange index point ∈ journal.ranges
  small : source.snapshotDone ≤ setup.tables.length
  fewer : source.snapshotDone ≤ journal.source.self.snapshotDone
  later : point = journal.source.server.point ∨ journal.source.server.point ≤ point ∧
    ∀ place, ¬ Finished setup journal.positions place
  low : point ≤ lsnLimit → source.position ≤ lsnLimit

def answered (journal : Journal State) (done : Nat) (source : State) : Except Error (List RecordBatch) → Journal State
  | .error _ => {journal with source}
  | .ok batches => {journal with source,process := .up done (.polled batches)}

namespace Chronicle

section
variable (chronicle : Chronicle publisher setup env config journal)
include chronicle

lemma up (here : journal.process = .up done stage) : Up publisher setup journal done stage := by
  have standing := chronicle.standing
  unfold Standing at standing
  rw [here] at standing
  exact standing

lemma sourced (source recorded resume process) (tracks : source.Tracks publisher setup)
    (bounded : Bounded source.server)
    (point : source.server.point = journal.source.server.point ∨ journal.source.server.point ≤ source.server.point ∧
      ∀ place, ¬ Finished setup journal.positions place)
    (standing : Standing publisher setup {journal with source,recorded,resume,process}) :
    Chronicle publisher setup env config {journal with source,recorded,resume,process} := by
  have later : journal.source.server.point ≤ source.server.point := by
    rcases point with same | ⟨later,_⟩
    · exact le_of_eq same.symm
    · exact later
  refine ⟨tracks,bounded.shown,bounded.limit,fun place range there => ?_,fun place position there => ?_,
    chronicle.settled,fun item mem => ?_,fun place inside => ?_,standing⟩
  · rcases chronicle.shaped place range there with
      ⟨unfinished,index,planned,same,small,below,others⟩ | ⟨finished,first,last,same,recorded,reached⟩
    · exact .inl ⟨unfinished,index,planned,same,small,le_trans below later,others⟩
    · rcases point with same' | ⟨_,unfinished⟩
      · refine .inr ⟨finished,first,last,same,recorded,?_⟩
        rw [same']
        exact reached
      · exact absurd finished (unfinished place)
  · obtain ⟨offsets,same,small,low,reached⟩ := chronicle.marks place position there
    refine ⟨offsets,same,small,low,fun complete => ?_⟩
    rcases point with same' | ⟨_,unfinished⟩
    · rw [same']
      exact reached complete
    · exact absurd ⟨offsets,same ▸ there,complete⟩ (unfinished (place + 1))
  · obtain ⟨range,point,batches,there,below,carries,prepares⟩ := chronicle.held item mem
    exact ⟨range,point,batches,there,le_trans below later,carries,prepares⟩
  · rcases chronicle.landed place inside with held | ⟨range,point,batches,there,below,carries,empty⟩
    · exact .inl held
    · exact .inr ⟨range,point,batches,there,le_trans below later,carries,empty⟩

lemma unfinished (sound : Sound journal) (here : journal.process = .up done stage)
    (reading : ¬ Finished setup journal.positions done)
    (incomplete : journal.source.self.snapshotDone < setup.tables.length) (place) :
    ¬ Finished setup journal.positions place := by
  intro finished
  have up := chronicle.up here
  have high := (sound.up _ _ here).2.1
  rcases lt_or_ge done place with beyond | within
  · have inside : place ≤ done + 1 := by
      obtain _ | earlier := place
      · omega
      · obtain ⟨offsets,there,_⟩ := finished
        have := (List.getElem?_eq_some_iff.mp there).1
        have := up.positions
        omega
    obtain rfl : place = done + 1 := by omega
    have := (up.snapshotting reading).committed finished
    omega
  · exact reading (chronicle.settled place done finished within high)

lemma recorded (idle : journal.process = .up done .idle) (length : journal.ranges.length = done)
    (logged : journal.positions.length = done)
    (shaped : Shaped publisher setup journal.source.server.point journal.ranges journal.positions done range) :
    Chronicle publisher setup env config {journal with ranges := journal.ranges ++ [range]} := by
  have up := chronicle.up idle
  have none : journal.ranges[done]? = none := getElem?_eq_none (le_of_eq length)
  have kept : ∀ place found, journal.ranges[place]? = some found →
      (journal.ranges ++ [range])[place]? = some found := fun place found there =>
    (getElem?_append_left (getElem?_eq_some_iff.mp there).1).trans there
  refine ⟨chronicle.tracks,chronicle.shown,chronicle.limit,fun place found there => ?_,
    fun place position there => ?_,chronicle.settled,fun item mem => ?_,fun place inside => ?_,?_⟩
  · rcases lt_or_ge place done with old | new
    · have before : journal.ranges[place]? = some found := by rwa [getElem?_append_left (by omega)] at there
      exact (chronicle.shaped place found before).append (by omega) _
    · have last : place = done ∧ range = found := by
        rw [getElem?_append_right (by omega),getElem?_singleton] at there
        split at there
        · exact ⟨by omega,Option.some.inj there⟩
        · cases there
      obtain ⟨rfl,rfl⟩ := last
      exact shaped.append (le_of_eq length.symm) _
  · obtain ⟨offsets,same,small,low,reached⟩ := chronicle.marks place position there
    have inside : place < journal.positions.length := (List.getElem?_eq_some_iff.mp there).1
    exact ⟨offsets,same,small,low,fun complete => (reached complete).append (by omega) _⟩
  · obtain ⟨found,point,batches,there,rest⟩ := chronicle.held item mem
    exact ⟨found,point,batches,kept _ _ there,rest⟩
  · rcases chronicle.landed place inside with held | ⟨found,point,batches,there,rest⟩
    · exact .inl held
    · exact .inr ⟨found,point,batches,kept _ _ there,rest⟩
  · rw [idle]
    refine ⟨?_,up.positions,up.snapshotDone,up.position,trivial,fun reading => ?_,fun finished => ?_⟩
    · simp [length]
    · obtain ⟨session,position,passed,pending,committed,opened⟩ := up.snapshotting reading
      refine ⟨session,position,fun slotted index less => ?_,fun complete => ?_,committed,opened⟩
      · exact mem_append_left _ (passed slotted index less)
      · obtain ⟨index,there,_⟩ := pending complete
        rw [none] at there
        cases there
    · obtain ⟨complete,stands⟩ := up.following finished
      refine ⟨complete,stands.imp ?_ fun reached => reached.append (le_of_eq length.symm) _⟩
      rintro ⟨first,last,there,_⟩
      rw [none] at there
      cases there

lemma entered (valid : setup.Valid) (sound : Sound journal)
    (here : journal.process = .up done stage) (reading : ¬ Finished setup journal.positions done)
    (enters : Enters setup journal.source.self ⟨input,journal.source.server⟩ middle between) :
    Slot setup journal middle between.server.point := by
  have up := chronicle.up here
  have snapshotting := up.snapshotting reading
  rcases enters with ⟨steady,stays⟩ | reopened
  · have slotted : Slotted setup middle → Slotted setup journal.source.self := by
      unfold Slotted
      rw [steady.snapshotDone]
      intro slotted
      rcases lt_or_ge journal.source.self.snapshotDone setup.tables.length with less | complete
      · rw [← stays valid.tables less]
        exact slotted
      · exact .inr complete
    refine ⟨fun is => ?_,fun is index less => ?_,?_,le_of_eq steady.snapshotDone,.inl steady.point,fun _ => ?_⟩
    · rw [steady.position,steady.point]
      exact snapshotting.position (slotted is)
    · rw [steady.snapshotDone] at less
      rw [steady.point]
      exact snapshotting.passed (slotted is) index less
    · rw [steady.snapshotDone]
      exact up.snapshotDone
    · rw [steady.position]
      exact up.position
  · have past : journal.source.server.shown ≤ between.server.point := reopened.past
    refine ⟨fun _ => reopened.position,fun _ index less => ?_,?_,?_,.inr ⟨?_,?_⟩,fun small => ?_⟩
    · rw [reopened.snapshotDone] at less
      cases less
    · rw [reopened.snapshotDone]
      exact Nat.zero_le _
    · rw [reopened.snapshotDone]
      exact Nat.zero_le _
    · exact le_trans chronicle.shown past
    · exact chronicle.unfinished sound here reading (reopened.incomplete.resolve_left valid.tables)
    · rw [reopened.position]
      exact small

lemma plans_table [Unrenamed publisher] (valid : setup.Valid) (sound : Sound journal)
    (idle : journal.process = .up done .idle) (last : journal.ranges.length ≤ done)
    (reading : ¬ Finished setup journal.positions done) :
    let called := (publisher.source setup).planBatch input journal.source
    Chronicle publisher setup env config {journal with source := called.2} ∧
      ∀ range, called.1 = .ok range → range.isEmpty = false →
        Shaped publisher setup called.2.server.point journal.ranges journal.positions done range := by
  intro called
  have up := chronicle.up idle
  have snapshotting := up.snapshotting reading
  have none : journal.ranges[done]? = none := getElem?_eq_none last
  have incomplete : journal.source.self.snapshotDone < setup.tables.length :=
    Nat.lt_of_not_le fun complete => by
      obtain ⟨index,there,_⟩ := snapshotting.pending complete
      rw [none] at there
      cases there
  have planning : Tracking publisher setup journal.source.self
    (Wire.mk input journal.source.server).server := chronicle.tracks
  obtain ⟨choices,tracks,middle,between,enters,_,stays,returned⟩ :=
    call_ensures (planBatch setup) input journal.source (planBatch_ensures _ planning (Nat.lt_succ_self _))
  obtain ⟨_,silent⟩ := call_ensures (planBatch setup) input journal.source
    (planBatch_silent snapshotting.session _ planning valid.tables incomplete)
  have bounded : Bounded called.2.server := call_bounded _ input ⟨chronicle.shown,chronicle.limit⟩
  have slot := chronicle.entered valid sound idle reading enters
  have fewer := slot.fewer
  obtain ⟨same,server⟩ := stays (by omega)
  have same : called.2.self = middle := same
  rw [← same] at fewer
  have point : called.2.server.point = between.server.point := congrArg Server.point server
  rw [← same,← point] at slot
  constructor
  · refine chronicle.sourced _ _ _ _ tracks bounded slot.later ?_
    rw [idle]
    refine ⟨up.ranges,up.positions,slot.small,slot.low (le_trans bounded.shown bounded.limit),trivial,
      fun _ => ⟨silent.session,slot.position,slot.passed,fun complete => ?_,fun finished => ?_,?_⟩,
      fun finished => absurd finished reading⟩
    · dsimp only at complete
      omega
    · exact absurd finished (chronicle.unfinished sound idle reading incomplete _)
    · rintro (⟨_,other⟩ | other) <;> cases other
  · intro range answer some
    obtain ⟨opened,planned⟩ := returned range answer
    rw [← same] at opened planned
    rcases planned with rfl | ⟨_,⟨less,rfl⟩ | ⟨complete,_⟩⟩
    · cases some
    · have slotted : Slotted setup called.2.self := .inl opened
      refine .inl ⟨reading,_,_,rfl,less,le_of_eq (slot.position slotted),fun other small => ?_⟩
      rw [take_of_length_le last,slot.position slotted]
      exact slot.passed slotted other small
    · omega

lemma plans_stretch [Unrenamed publisher] (valid : setup.Valid) (idle : journal.process = .up done .idle)
    (last : journal.ranges.length ≤ done) (finished : Finished setup journal.positions done) :
    let called := (publisher.source setup).planBatch input journal.source
    Chronicle publisher setup env config {journal with source := called.2} ∧
      ∀ range, called.1 = .ok range → range.isEmpty = false →
        Shaped publisher setup called.2.server.point journal.ranges journal.positions done range := by
  intro called
  have up := chronicle.up idle
  have none : journal.ranges[done]? = none := getElem?_eq_none last
  have planning : Tracking publisher setup journal.source.self
    (Wire.mk input journal.source.server).server := chronicle.tracks
  obtain ⟨choices,tracks,middle,between,enters,advance,_,returned⟩ :=
    call_ensures (planBatch setup) input journal.source (planBatch_ensures _ planning (Nat.lt_succ_self _))
  have bounded : Bounded called.2.server := call_bounded _ input ⟨chronicle.shown,chronicle.limit⟩
  obtain ⟨complete,stands⟩ := up.following finished
  have streaming : Streaming setup journal.source.self := ⟨complete,.inr valid.tables⟩
  have steady := streaming.steady enters
  have reached := (stands.resolve_left fun ⟨first,stop,there,_⟩ => by
    rw [none] at there
    cases there)
  have same := steady.position
  have point : called.2.server.point = journal.source.server.point :=
    advance.point.trans steady.point
  have number : called.2.self.snapshotDone = journal.source.self.snapshotDone :=
    advance.snapshotDone.trans steady.snapshotDone
  constructor
  · refine chronicle.sourced _ _ _ _ tracks bounded (.inl point) ?_
    rw [idle]
    refine ⟨up.ranges,up.positions,number ▸ up.snapshotDone,?_,trivial,
      fun reading => absurd finished reading,fun _ => ⟨number ▸ complete,.inr ?_⟩⟩
    · have seen : called.2.self.position ≤ max middle.position called.2.server.shown := advance.seen
      have := up.position
      have := bounded.limit
      dsimp only
      omega
    · rw [← same] at reached
      rw [point]
      exact reached.advance advance.lower advance.silent
  · intro range answer some
    rcases (returned range answer).2 with rfl | ⟨kept,⟨more,_⟩ | ⟨_,stop,rfl,recorded,_⟩⟩
    · cases some
    · have := steady.snapshotDone
      omega
    · refine .inr ⟨finished,_,_,rfl,recorded,?_⟩
      rw [point,same]
      exact reached

lemma plans [Unrenamed publisher] (valid : setup.Valid) (sound : Sound journal)
    (idle : journal.process = .up done .idle) (last : journal.ranges.length ≤ done)
    (input) :
    let called := (publisher.source setup).planBatch input journal.source
    Chronicle publisher setup env config {journal with source := called.2} ∧
      ∀ range, called.1 = .ok range → range.isEmpty = false →
        Shaped publisher setup called.2.server.point journal.ranges journal.positions done range := by
  by_cases finished : Finished setup journal.positions done
  · exact chronicle.plans_stretch valid idle last finished
  · exact chronicle.plans_table valid sound idle last finished

end

lemma poll_slot [Unrenamed publisher] (tracks : state.Tracks publisher setup)
    (streaming : Streaming setup state.self) (recorded : Recorded publisher setup first last)
    (called : (publisher.source setup).pollRange input (lsnRange first last) state = (result,after)) :
    after.self.snapshotDone = state.self.snapshotDone ∧ after.server.point = state.server.point := by
  have polling : Tracking publisher setup state.self (Wire.mk input state.server).server := tracks
  obtain ⟨_,_,middle,between,read,enters,read_,outcome⟩ := called_ensures
    (fun room => pollRange setup room (lsnRange first last)) called
    (pollRange_recorded _ recorded polling (Nat.lt_succ_self _))
  have steady := streaming.steady enters
  have read_ : read.snapshotDone = middle.snapshotDone ∧ after.server.point = between.server.point := by
    rcases read_ with kept | dropped
    · exact ⟨kept.snapshotDone,kept.point⟩
    · exact ⟨dropped.snapshotDone,dropped.point⟩
  have number : after.self.snapshotDone = read.snapshotDone := by
    cases result with
    | error e => rw [show after.self = _ from outcome]
    | ok batches => rw [show after.self = _ from outcome.1]
  exact ⟨number.trans (read_.1.trans steady.snapshotDone),read_.2.trans steady.point⟩

lemma polls_stretch [Unrenamed publisher] (valid : setup.Valid)
    (chronicle : Chronicle publisher setup env config journal) (idle : journal.process = .up done .idle)
    (there : journal.ranges[done]? = some (lsnRange first last)) (recorded : Recorded publisher setup first last)
    (finished : Finished setup journal.positions done) {state : State}
    (called : (publisher.source setup).pollRange input (lsnRange first last) journal.source = (result,state)) :
    Chronicle publisher setup env config (answered journal done state result) :=
    by
  have up := chronicle.up idle
  obtain ⟨complete,stands⟩ := up.following finished
  have tracks := Happens.tracks (.poll input (lsnRange first last)) chronicle.tracks
  have bounded := poll_bounded ⟨chronicle.shown,chronicle.limit⟩ called
  have streaming : Streaming setup journal.source.self := ⟨complete,.inr valid.tables⟩
  obtain ⟨number,point⟩ := poll_slot chronicle.tracks streaming recorded called
  obtain ⟨streaming,outcome⟩ := poll_recorded chronicle.tracks streaming recorded input
  rw [called] at tracks streaming outcome
  cases result with
  | error e =>
    apply chronicle.sourced _ _ _ _ tracks bounded (.inl point)
    dsimp only
    rw [idle]
    refine ⟨up.ranges,up.positions,number ▸ up.snapshotDone,outcome ▸ up.position,trivial,
      fun reading => absurd finished reading,fun _ => ⟨streaming.1,?_⟩⟩
    unfold Ahead
    rw [outcome,point]
    exact stands
  | ok batches =>
    obtain ⟨atEnd,built⟩ := outcome
    have small := recorded.small
    apply chronicle.sourced _ _ _ _ tracks bounded (.inl point)
    refine ⟨up.ranges,up.positions,number ▸ up.snapshotDone,?_,?_,
      fun reading => absurd finished reading,fun _ => ⟨streaming.1,first,last,there,atEnd⟩⟩
    · rw [atEnd]
      unfold lsnLimit
      omega
    · exact ⟨_,there,.inl ⟨first,last,rfl,recorded,built⟩⟩

def Counts (setup : Setup) (journal : Journal State) (planned : Nat) (middle : PostgresCdcSource)
    (server : Server) : Prop :=
  setup.tables.length ≤ journal.source.self.snapshotDone →
    middle.snapshotDone = journal.source.self.snapshotDone ∧ planned = middle.position ∧
      server.point = journal.source.server.point

section
variable (chronicle : Chronicle publisher setup env config journal)
include chronicle

variable {planned : Nat}

lemma counts (valid : setup.Valid) (idle : journal.process = .up done .idle)
    (there : journal.ranges[done]? = some (snapshotRange index planned))
    (low : planned ≤ journal.source.server.point) (reading : ¬ Finished setup journal.positions done)
    (enters : Enters setup journal.source.self ⟨input,journal.source.server⟩ middle between) :
    Counts setup journal planned middle between.server := by
  intro complete
  have snapshotting := (chronicle.up idle).snapshotting reading
  have streaming : Streaming setup journal.source.self := ⟨complete,.inr valid.tables⟩
  have steady := streaming.steady enters
  obtain ⟨index',there',_⟩ := snapshotting.pending complete
  have same := Option.some.inj (there.symm.trans there')
  have limit := le_trans chronicle.shown chronicle.limit
  have equal : planned = journal.source.server.point := by
    have points := congrArg (·.start[consistentPointKey]?) same
    simp only [snapshotRange_point,Option.some.injEq] at points
    unfold lsnLimit at limit
    exact Lsn.asI64_inj (by omega) (by omega) points
  refine ⟨steady.snapshotDone,?_,steady.point⟩
  rw [equal,steady.position]
  exact (snapshotting.position (.inr complete)).symm

lemma misses_table (idle : journal.process = .up done .idle) (reading : ¬ Finished setup journal.positions done)
    (slot : Slot setup journal middle server.point) (point : state.server.point = server.point)
    (session : state.server.session = none) (tracks : state.Tracks publisher setup) (bounded : Bounded state.server)
    (counts : Counts setup journal planned middle server)
    (polled : SnapshotPolled publisher setup index (some (Lsn.asI64 planned) == some (Lsn.asI64 middle.position))
        middle server (.error e) state.self) :
    Chronicle publisher setup env config {journal with source := state} := by
  have up := chronicle.up idle
  have snapshotting := up.snapshotting reading
  rw [← point] at slot
  have fewer : state.self.snapshotDone ≤ middle.snapshotDone := by
    rcases polled.failed e rfl with same | ⟨_,zero⟩
    · exact le_of_eq same
    · rw [zero]
      exact Nat.zero_le _
  have slotted : Slotted setup state.self → Slotted setup middle := by
    rintro (opened | complete)
    · exact .inl (polled.opened opened)
    · exact .inr (le_trans complete fewer)
  apply chronicle.sourced _ _ _ _ tracks bounded slot.later
  rw [idle]
  refine ⟨up.ranges,up.positions,le_trans fewer slot.small,?_,trivial,
    fun _ => ⟨session,fun is => ?_,fun is other less => ?_,fun complete => ?_,fun finished => ?_,?_⟩,
    fun finished => absurd finished reading⟩
  · rw [polled.position]
    exact slot.low (le_trans bounded.shown bounded.limit)
  · rw [polled.position]
    exact slot.position (slotted is)
  · exact slot.passed (slotted is) other (lt_of_lt_of_le less fewer)
  · have complete : setup.tables.length ≤ journal.source.self.snapshotDone :=
      le_trans complete (le_trans fewer slot.fewer)
    rw [point,(counts complete).2.2]
    exact snapshotting.pending complete
  · have complete := snapshotting.committed finished
    obtain ⟨number,same,_⟩ := counts complete
    rcases polled.failed e rfl with kept | ⟨off,_⟩
    · rw [kept,number]
      exact complete
    · rw [same] at off
      simp at off
  · rintro (⟨_,other⟩ | other) <;> cases other

lemma reads_table (valid : setup.Valid) (idle : journal.process = .up done .idle)
    (there : journal.ranges[done]? = some (snapshotRange index planned)) (small : index < setup.tables.length)
    (low : planned ≤ journal.source.server.point)
    (others : ∀ other < index, snapshotRange other planned ∈ journal.ranges.take done)
    (reading : ¬ Finished setup journal.positions done) (slot : Slot setup journal middle server.point)
    (opened : middle.opened = true) (point : state.server.point = server.point)
    (session : state.server.session = none) (tracks : state.Tracks publisher setup) (bounded : Bounded state.server)
    (counts : Counts setup journal planned middle server)
    (polled : SnapshotPolled publisher setup index (some (Lsn.asI64 planned) == some (Lsn.asI64 middle.position))
        middle server (.ok batches) state.self) :
    Chronicle publisher setup env config {journal with source := state,process := .up done (.polled batches)} := by
  have up := chronicle.up idle
  have snapshotting := up.snapshotting reading
  obtain ⟨opened',number,table,found,sliced⟩ := polled.done batches rfl
  have place : middle.position = server.point := slot.position (.inl opened)
  rw [← point] at slot
  have limit := le_trans bounded.shown bounded.limit
  have later : journal.source.server.point ≤ state.server.point := by
    rcases slot.later with same | ⟨later,_⟩
    · exact le_of_eq same.symm
    · exact later
  have counted : state.self.snapshotDone ≠ 0 →
      planned = state.server.point ∧ state.self.snapshotDone = index + 1 := by
    intro some
    rw [number] at some ⊢
    split at some
    · next equal =>
      rw [if_pos equal,point,← place]
      simp only [beq_iff_eq,Option.some.injEq] at equal
      unfold lsnLimit at limit
      exact ⟨Lsn.asI64_inj (by omega) (by omega) equal,rfl⟩
    · exact absurd rfl some
  apply chronicle.sourced _ _ _ _ tracks bounded slot.later
  refine ⟨up.ranges,up.positions,?_,?_,⟨_,there,.inr ⟨index,planned,table,rfl,?_,found,?_⟩⟩,
    fun _ => ⟨session,fun _ => ?_,fun _ other less => ?_,fun complete => ?_,fun finished => ?_,fun _ => ?_⟩,
    fun finished => absurd finished reading⟩
  · rw [number]
    split <;> omega
  · rw [polled.position]
    exact slot.low limit
  · exact le_trans low later
  · have sliced := sliced valid.rows
    rw [place] at sliced
    rw [point]
    exact sliced
  · rw [polled.position]
    exact slot.position (.inl opened)
  · have less : other < state.self.snapshotDone := less
    obtain ⟨same,count⟩ := counted (by omega)
    rw [← same]
    rcases lt_or_ge other index with before | last
    · exact mem_of_mem_take (others other before)
    · obtain rfl : other = index := by omega
      exact mem_of_getElem? there
  · have complete : setup.tables.length ≤ state.self.snapshotDone := complete
    obtain ⟨same,count⟩ := counted (by omega)
    rw [← same]
    exact ⟨index,there,by omega⟩
  · have complete := snapshotting.committed finished
    obtain ⟨_,same,_⟩ := counts complete
    obtain ⟨index',there',last⟩ := snapshotting.pending complete
    have again := congrArg (·.start[snapshotKey]?) (Option.some.inj (there.symm.trans there'))
    simp only [snapshotRange_index,Option.some.injEq] at again
    have addressable := valid.addressable
    obtain rfl : index = index' := Lsn.asI64_inj (by omega) (by omega) again
    rw [number,same,beq_self_eq_true,if_pos rfl]
    exact le_of_eq last
  · rw [opened']
    exact opened

lemma polls_table (valid : setup.Valid) (sound : Sound journal) (idle : journal.process = .up done .idle)
    (there : journal.ranges[done]? = some (snapshotRange index planned)) (small : index < setup.tables.length)
    (low : planned ≤ journal.source.server.point)
    (others : ∀ other < index, snapshotRange other planned ∈ journal.ranges.take done)
    (reading : ¬ Finished setup journal.positions done)
    (called : (publisher.source setup).pollRange input (snapshotRange index planned) journal.source =
        (result,state)) :
    Chronicle publisher setup env config (answered journal done state result) := by
  have bounded := poll_bounded ⟨chronicle.shown,chronicle.limit⟩ called
  have polling : Tracking publisher setup journal.source.self
    (Wire.mk input journal.source.server).server := chronicle.tracks
  have addressable := valid.addressable
  obtain ⟨_,⟨tracks,middle,between,enters,wired,opened,polled⟩,silent⟩ := called_ensures
    (fun room => pollRange setup room (snapshotRange index planned)) called
    (Act.ensures_and (pollRange_snapshot _ (by omega) polling)
      (pollRange_silent ((chronicle.up idle).snapshotting reading).session _))
  have slot := chronicle.entered valid sound idle reading enters
  have counts := chronicle.counts valid idle there low reading enters
  have point : state.server.point = between.server.point := wired.point
  cases result with
  | error e => exact misses_table chronicle idle reading slot point silent.session tracks bounded counts polled
  | ok batches =>
    exact chronicle.reads_table valid idle there small low others reading slot (opened _ rfl) point
      silent.session tracks bounded counts polled

lemma polls [Unrenamed publisher] (valid : setup.Valid) (sound : Sound journal)
    (idle : journal.process = .up done .idle) (there : journal.ranges[done]? = some range)
    (input : List WireChoice)
    (called : (publisher.source setup).pollRange input range journal.source = (result,state)) :
    Chronicle publisher setup env config (answered journal done state result) :=
    by
  rcases chronicle.shaped done range there with
    ⟨reading,index,planned,rfl,small,low,others⟩ | ⟨finished,first,last,rfl,recorded,_⟩
  · exact chronicle.polls_table valid sound idle there small low others reading called
  · exact polls_stretch valid chronicle idle there recorded finished called

end

end Chronicle
end Moves
end Oxidant.Cdc
