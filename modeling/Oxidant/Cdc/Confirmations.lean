import Oxidant.Cdc.ChronicleRuns

/-! The positions a query confirms to the server, which may then recycle its log up to them: what
committed before one is in the sink, and the saved checkpoint is past it, provided that the server
asks for no status update while a batch is awaiting its checkpoint. -/
namespace Oxidant.Cdc
open Lib Oxidant.Streaming Oxidant.Streaming.Journal JournalRefinement PostgresCdcSource

variable {publisher : Publisher}

section Sends
variable {state : State}

structure Sends (allowed : Nat → Prop) (input : List WireChoice) (state after : State) : Prop where
  point : after.server.point = state.server.point
  sent : ∀ lsn ∈ after.server.confirmed, lsn ∈ state.server.confirmed ∨ allowed lsn
  calm : Calm input → after.server.confirmed = state.server.confirmed

lemma Sends.of_wired (wired : Wired allowed ⟨input,state.server⟩ ⟨choices,after.server⟩) :
    Sends allowed input state after := by
  obtain ⟨sent,same,all⟩ := wired.confirmed
  refine ⟨wired.point,fun lsn mem => ?_,fun calm => (wired.calm calm).2⟩
  have mem : lsn ∈ state.server.confirmed ++ sent := by
    rw [← same]
    exact mem
  exact (List.mem_append.mp mem).imp id (all lsn)

lemma plan_sends [Unrenamed publisher] (tracks : state.Tracks publisher setup) (streaming : Streaming setup state.self)
    (called : (publisher.source setup).planBatch input state = (result,after)) :
    Sends (fun lsn => lsn = state.self.position ∨ lsn = after.self.position) input state after := by
  have planning := tracks
  obtain ⟨_,_,middle,between,enters,advance,_⟩ :=
    called_ensures (planBatch setup) called (planBatch_ensures _ planning (Nat.lt_succ_self _))
  have steady := streaming.steady enters
  refine .of_wired ((steady.toWired.mono fun _ => .inl).trans (advance.toWired.mono ?_))
  rw [steady.position]
  exact fun _ => id

lemma poll_sends [Unrenamed publisher] (tracks : state.Tracks publisher setup)
    (streaming : Streaming setup state.self) (recorded : Recorded publisher setup first last)
    (called : (publisher.source setup).pollRange input (lsnRange first last) state = (result,after)) :
    Sends (fun lsn => lsn = state.self.position) input state after := by
  have polling : Tracking publisher setup state.self (Wire.mk input state.server).server := tracks
  obtain ⟨choices,_,middle,between,read,enters,read_,_⟩ := called_ensures
    (fun room => pollRange setup room (lsnRange first last)) called
    (pollRange_recorded _ recorded polling (Nat.lt_succ_self _))
  have steady := streaming.steady enters
  have wired : Wired (fun lsn => lsn = state.self.position) between ⟨choices,after.server⟩ := by
    rw [← steady.position]
    rcases read_ with kept | dropped
    · exact kept.toWired
    · exact dropped.toWired
  exact .of_wired (steady.toWired.trans wired)

lemma durable_sends (tracks : state.Tracks publisher setup)
    (called : (publisher.source setup).markDurable input state = (result,after)) :
    after.server.point = state.server.point ∧
      ∀ lsn ∈ after.server.confirmed, lsn ∈ state.server.confirmed ∨ lsn = state.self.position := by
  have marking : Tracking publisher setup state.self (Wire.mk input state.server).server := tracks
  obtain ⟨_,_,_,_,_,point,_,sent,same,all⟩ :=
    called_ensures (fun _ => markDurable setup) called (markDurable_ensures marking)
  refine ⟨point,fun lsn mem => ?_⟩
  have mem : lsn ∈ state.server.confirmed ++ sent := by
    rw [← same]
    exact mem
  exact (List.mem_append.mp mem).imp id (all lsn)

section Silent
variable (gone : state.server.session = none)
include gone

lemma plan_silent (tracks : state.Tracks publisher setup) (some : setup.tables ≠ [])
    (incomplete : state.self.snapshotDone < setup.tables.length)
    (called : (publisher.source setup).planBatch input state = (result,after)) :
    after.server.confirmed = state.server.confirmed := by
  have planning := tracks
  obtain ⟨_,silent⟩ := called_ensures (planBatch setup) called (planBatch_silent gone _ planning some incomplete)
  exact silent.confirmed

lemma poll_silent
    (called : (publisher.source setup).pollRange input (snapshotRange index point) state = (result,after)) :
    after.server.confirmed = state.server.confirmed := by
  obtain ⟨_,silent⟩ := called_ensures (fun room => pollRange setup room (snapshotRange index point)) called
    (@pollRange_silent publisher setup state.self ⟨input,state.server⟩ gone _ _ _)
  exact silent.confirmed

lemma durable_silent (called : (publisher.source setup).markDurable input state = (result,after)) :
    after.server.confirmed = state.server.confirmed := by
  obtain ⟨_,silent⟩ := called_ensures (fun _ => markDurable setup) called
    (@markDurable_silent publisher setup state.self ⟨input,state.server⟩ gone)
  exact silent.confirmed

end Silent
end Sends

section Confirming
variable (publisher setup)

def Backed (journal : Journal State) (lsn : Nat) : Prop :=
  Finished setup journal.positions journal.recorded ∧ ∃ count ≤ journal.recorded, ∃ position, lsn ≤ position ∧
      Reached publisher setup journal.source.server.point journal.ranges count position

/-- Before a batch is polled the source stands where the resume record says, unless it is awaiting a
checkpoint. -/
def Ready (awaiting : Prop) (journal : Journal State) : Prop :=
  awaiting ∨ ∀ done, journal.process = .up done .idle → Finished setup journal.positions done →
    journal.recorded = done ∧ Reached publisher setup journal.source.server.point journal.ranges done
      journal.source.self.position

structure Confirming (awaiting : Prop) (journal : Journal State) : Prop where
  backed : ∀ lsn ∈ journal.source.server.confirmed, Backed publisher setup journal lsn
  ready : Ready publisher setup awaiting journal

end Confirming

section Moves
variable {journal : Journal State}

lemma Backed.sourced (backed : Backed publisher setup journal lsn) (source)
    (point : source.server.point = journal.source.server.point) (process) :
    Backed publisher setup {journal with source,process} lsn := by
  obtain ⟨finished,count,few,position,past,reached⟩ := backed
  refine ⟨finished,count,few,position,past,?_⟩
  rw [point]
  exact reached

lemma Backed.append (sound : Sound journal) (backed : Backed publisher setup journal lsn) (more) :
    Backed publisher setup {journal with ranges := journal.ranges ++ more} lsn := by
  obtain ⟨finished,count,few,position,past,reached⟩ := backed
  have recorded := sound.recorded
  have planned := sound.planned
  exact ⟨finished,count,few,position,past,reached.append (by omega) more⟩

lemma Confirming.unsent (confirming : Confirming publisher setup awaiting journal)
    (chronicle : Chronicle publisher setup env config journal) (sound : Sound journal)
    (here : journal.process = .up done stage) (reading : ¬ Finished setup journal.positions done) :
    journal.source.server.confirmed = [] := by
  refine List.eq_nil_iff_forall_not_mem.mpr fun lsn mem => ?_
  obtain ⟨low,high,_⟩ := sound.up _ _ here
  exact reading (chronicle.settled _ _ (confirming.backed lsn mem).1 low high)

namespace Confirming

lemma silent (process) (none : state.server.confirmed = [])
    (unfinished : ∀ done, process = .up done .idle → ¬ Finished setup journal.positions done) :
    Confirming publisher setup awaiting {journal with source := state,process} := by
  refine ⟨fun lsn mem => ?_,.inr fun done here finished => absurd finished (unfinished done here)⟩
  rw [none] at mem
  cases mem

section
variable (confirming : Confirming publisher setup awaiting journal)
include confirming

lemma sends (sends : Sends allowed input journal.source state) (good : awaiting → Calm input)
    (allows : ¬ awaiting → ∀ lsn, allowed lsn → Backed publisher setup journal lsn)
    (process)
    (ready : Ready publisher setup awaiting {journal with source := state,process}) :
    Confirming publisher setup awaiting {journal with source := state,process} := by
  refine ⟨fun lsn mem => Backed.sourced ?_ state sends.point process,ready⟩
  by_cases waits : awaiting
  · rw [sends.calm (good waits)] at mem
    exact confirming.backed lsn mem
  · rcases sends.sent lsn mem with before | sent
    · exact confirming.backed lsn before
    · exact allows waits lsn sent

lemma backs (waits : ¬ awaiting) (idle : journal.process = .up done .idle)
    (finished : Finished setup journal.positions done) :
    journal.recorded = done ∧
    Reached publisher setup journal.source.server.point journal.ranges done journal.source.self.position ∧
    Backed publisher setup journal journal.source.self.position := by
  obtain ⟨same,reached⟩ := confirming.ready.resolve_left waits done idle finished
  exact ⟨same,reached,same ▸ finished,done,le_of_eq same.symm,_,le_rfl,reached⟩

lemma plans [Unrenamed publisher] (valid : setup.Valid) (chronicle : Chronicle publisher setup env config journal)
    (sound : Sound journal) (good : awaiting → Calm input) (idle : journal.process = .up done .idle)
    (last : journal.ranges.length ≤ done)
    (called : (publisher.source setup).planBatch input journal.source = (result,state)) :
    Confirming publisher setup awaiting {journal with source := state} := by
  have up := chronicle.up idle
  have empty : journal.ranges[done]? = none := List.getElem?_eq_none last
  have planned := (chronicle.plans valid sound idle last input).1
  rw [called] at planned
  by_cases finished : Finished setup journal.positions done
  · have streaming : Streaming setup journal.source.self :=
      ⟨(up.following finished).complete,.inr valid.tables⟩
    have sent := plan_sends chronicle.tracks streaming called
    have reached : Reached publisher setup journal.source.server.point journal.ranges done state.self.position := by
      rcases ((planned.up idle).following finished).stands with ⟨_,_,there,_⟩ | reached
      · cases (show journal.ranges[done]? = _ from there).symm.trans empty
      · rw [← sent.point]
        exact reached
    refine confirming.sends sent good (fun waits lsn allowed => ?_) journal.process ?_
    · obtain ⟨same,_,backed⟩ := confirming.backs waits idle finished
      rcases allowed with rfl | rfl
      · exact backed
      · exact ⟨same ▸ finished,done,le_of_eq same.symm,_,le_rfl,reached⟩
    · by_cases waits : awaiting
      · exact .inl waits
      · refine .inr fun other here finished => ?_
        obtain rfl : other = done := by
          cases (show journal.process = _ from here).symm.trans idle
          rfl
        refine ⟨(confirming.backs waits idle finished).1,?_⟩
        rw [sent.point]
        exact reached
  · have snapshotting := up.snapshotting finished
    have incomplete : journal.source.self.snapshotDone < setup.tables.length :=
      Nat.lt_of_not_le fun complete => by
        obtain ⟨index,there,_⟩ := snapshotting.pending complete
        cases there.symm.trans empty
    have none := (plan_silent snapshotting.session chronicle.tracks valid.tables incomplete called).trans
      (confirming.unsent chronicle sound idle finished)
    refine silent journal.process none fun other here => ?_
    cases here.symm.trans idle
    exact finished

lemma polls [Unrenamed publisher] (valid : setup.Valid) (chronicle : Chronicle publisher setup env config journal)
    (sound : Sound journal) (good : awaiting → Calm input) (idle : journal.process = .up done .idle)
    (there : journal.ranges[done]? = some range)
    (called : (publisher.source setup).pollRange input range journal.source = (result,state)) :
    Confirming publisher setup awaiting (answered journal done state result) := by
  have up := chronicle.up idle
  rcases chronicle.shaped done range there with
    ⟨reading,index,planned,rfl,_⟩ | ⟨finished,first,last,rfl,recorded,_⟩
  · have none := (poll_silent (up.snapshotting reading).session called).trans
      (confirming.unsent chronicle sound idle reading)
    cases result with
    | error e =>
      refine silent journal.process none fun other here => ?_
      cases here.symm.trans idle
      exact reading
    | ok batches => exact silent _ none fun _ here => by cases here
  · have streaming : Streaming setup journal.source.self :=
      ⟨(up.following finished).complete,.inr valid.tables⟩
    have sent := poll_sends chronicle.tracks streaming recorded called
    have allows : ¬ awaiting → ∀ lsn, lsn = journal.source.self.position → Backed publisher setup journal lsn := by
      rintro waits lsn rfl
      exact (confirming.backs waits idle finished).2.2
    cases result with
    | error e =>
      apply confirming.sends sent good allows journal.process
      by_cases waits : awaiting
      · exact .inl waits
      · obtain ⟨same,reached,_⟩ := confirming.backs waits idle finished
        have kept := (poll_recorded chronicle.tracks streaming recorded input).2
        rw [called] at kept
        refine .inr fun other here _ => ?_
        cases (show journal.process = _ from here).symm.trans idle
        refine ⟨same,?_⟩
        rw [sent.point,kept]
        exact reached
    | ok batches => exact confirming.sends sent good allows _ (.inr nofun)

lemma moved (process : Process) (busy : ∀ done, process ≠ .up done .idle) :
    Confirming publisher setup awaiting {journal with process} :=
  ⟨fun lsn mem => (confirming.backed lsn mem).sourced journal.source rfl process,
    .inr fun done here => absurd here (busy done)⟩

lemma commits (sound : Sound journal) (here : journal.process = .up done stage) (offsets process)
    (busy : ∀ done, process ≠ .up done .idle) :
    Confirming publisher setup awaiting
      {journal with positions := put journal.positions done (some offsets),process} := by
  obtain ⟨low,high,_⟩ := sound.up _ _ here
  refine ⟨fun lsn mem => ?_,.inr fun done here => absurd here (busy done)⟩
  obtain ⟨finished,rest⟩ := confirming.backed lsn mem
  refine ⟨?_,rest⟩
  dsimp only
  rwa [finished_put high,if_neg (by omega)]

lemma saves (chronicle : Chronicle publisher setup env config journal) {recorded : Nat}
    (later : journal.recorded ≤ recorded) (inside : recorded ≤ journal.positions.length)
    (resume process) (busy : ∀ done, process ≠ .up done .idle) :
    Confirming publisher setup awaiting {journal with recorded,resume,process} := by
  refine ⟨fun lsn mem => ?_,.inr fun done here => absurd here (busy done)⟩
  obtain ⟨finished,count,few,rest⟩ := confirming.backed lsn mem
  exact ⟨chronicle.settled _ _ finished later inside,count,le_trans few later,rest⟩

lemma confirms (chronicle : Chronicle publisher setup env config journal) (sound : Sound journal)
    (here : journal.process = .up done .saved)
    (called : (publisher.source setup).markDurable input journal.source = (result,state)) :
    Confirming publisher setup awaiting {journal with source := state,process := .up done .ended} := by
  have up := chronicle.up here
  by_cases finished : Finished setup journal.positions done
  · obtain ⟨point,sent⟩ := durable_sends chronicle.tracks called
    have same : journal.recorded = done := (sound.up _ _ here).2.2.2
    refine ⟨fun lsn mem => Backed.sourced ?_ state point _,.inr nofun⟩
    rcases sent lsn mem with before | rfl
    · exact confirming.backed lsn before
    · exact ⟨same ▸ finished,done,le_of_eq same.symm,_,le_rfl,(up.following finished).stands⟩
  · exact silent _ ((durable_silent (up.snapshotting finished).session called).trans
      (confirming.unsent chronicle sound here finished)) fun _ here => by cases here

end

end Confirming
end Moves

section Runs
lemma Confirming.runs [Unrenamed publisher] (valid : setup.Valid)
    (step : Step
        (restrict (environment publisher setup plan violations mayFail) (fun input => awaiting → Calm input)) config
        journal .running after)
    (sound : Sound journal)
    (chronicle : Chronicle publisher setup (environment publisher setup plan violations mayFail) config journal)
    (confirming : Confirming publisher setup awaiting journal) : Confirming publisher setup awaiting after := by
  cases step with
  | crash => exact confirming.moved _ fun _ here => by cases here
  | abandon => exact confirming.moved _ fun _ here => by cases here
  | plan up last input => exact confirming.plans valid chronicle sound input.2 up last rfl
  | record up last input answer some =>
    have planned := confirming.plans valid chronicle sound input.2 up last rfl
    refine ⟨fun lsn mem => Backed.append (sound.sourced _) (planned.backed lsn mem) _,?_⟩
    refine planned.ready.imp id fun ready done here finished => ?_
    have high := (sound.up _ _ here).2.1
    have ahead := sound.planned
    obtain ⟨same,reached⟩ := ready done here finished
    exact ⟨same,reached.append (by dsimp only; omega) _⟩
  | miss up there input answer =>
    exact confirming.polls valid chronicle sound input.2 up there (Prod.ext answer rfl)
  | poll up there input answer =>
    exact confirming.polls valid chronicle sound input.2 up there (Prod.ext answer rfl)
  | skip => exact confirming.moved _ fun _ here => by cases here
  | write up some prepares acknowledged =>
    refine ⟨confirming.backed,.inr fun _ here => ?_⟩
    cases acknowledged <;> cases here
  | commit up acknowledged =>
    refine confirming.commits sound up _ _ fun _ here => ?_
    cases acknowledged <;> cases here
  | save up acknowledged =>
    obtain ⟨low,high,_⟩ := sound.up _ _ up
    refine confirming.saves chronicle low high _ _ fun _ here => ?_
    cases acknowledged <;> cases here
  | durable up input => exact confirming.confirms chronicle sound up rfl

lemma Confirming.starts {good : List WireChoice → Prop}
    (step : Step (restrict (environment publisher setup plan violations mayFail) good) config journal
        .starting after)
    (chronicle : Chronicle publisher setup (environment publisher setup plan violations mayFail) config journal)
    (confirming : Confirming publisher setup True journal) : Confirming publisher setup True after := by
  cases step with
  | crash => exact confirming.moved _ fun _ here => by cases here
  | build => exact ⟨fun lsn mem => (confirming.backed lsn mem).sourced _ rfl _,.inl trivial⟩
  | recover starting committed =>
    exact confirming.saves chronicle (Nat.le_succ _) (List.getElem?_eq_some_iff.mp committed).1 _ _
      fun _ here => by cases here
  | start =>
    have server : (journal.resume.elim journal.source
        ((publisher.source setup).restoreOffsets · journal.source)).server = journal.source.server := by
      cases journal.resume <;> rfl
    refine ⟨fun lsn mem => ?_,.inl trivial⟩
    have mem : lsn ∈ journal.source.server.confirmed := server ▸ mem
    exact (confirming.backed lsn mem).sourced _ (congrArg Server.point server) _

end Runs
end Oxidant.Cdc
