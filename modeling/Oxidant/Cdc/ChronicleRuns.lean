import Oxidant.Cdc.ChronicleSteps

/-! The chronicle over whole runs of a query: writes, commits, saves, crashes and starts keep it, as
the calls of the source do. -/
namespace Oxidant.Cdc
open Lib Oxidant.Streaming Oxidant.Streaming.Journal JournalRefinement PostgresCdcSource List Option

variable {publisher : Publisher}

section Landing
variable {held : List (Nat × List RecordBatch)}

lemma mem_land_of_mem (mem : item ∈ held) : item ∈ land held batchId rows := by
  unfold land Sink.writeBatch
  split
  · exact mem
  · exact mem_append_left _ mem

lemma land_has (some : 0 < batchId) (below : ∀ item ∈ held, item.1 ≤ batchId) :
    ∃ rows', (batchId,rows') ∈ land held batchId rows := by
  unfold land Sink.writeBatch
  split
  · next old =>
    refine Classical.byContradiction fun missing => ?_
    have less : (Sink.mk "" held).highest ≤ batchId - 1 := by
      refine Sink.highest_le _ _ fun item mem => ?_
      have apart : item.1 ≠ batchId := by
        rintro rfl
        exact missing ⟨item.2,mem⟩
      have := below item mem
      omega
    omega
  · exact ⟨rows,mem_append_right _ (mem_singleton.mpr rfl)⟩

end Landing

section Moves
variable {env : Environment State χ}

lemma Up.ended {next} (up : Up publisher setup journal done stage) (ended : next = .idle ∨ next = .ended)
    (process) : Up publisher setup {journal with process} done next := by
  obtain ⟨ranges,positions,number,position,_,snapshotting,following⟩ := up
  refine ⟨ranges,positions,number,position,?_,fun reading => ?_,fun finished => ?_⟩
  · rcases ended with rfl | rfl <;> trivial
  · obtain ⟨session,position,passed,pending,committed,_⟩ := snapshotting reading
    refine ⟨session,position,passed,pending,committed,?_⟩
    rcases ended with rfl | rfl <;> rintro (⟨_,none⟩ | none) <;> cases none
  · obtain ⟨complete,stands⟩ := following finished
    have stands : Ahead journal done ∨ Reached publisher setup journal.source.server.point
        journal.ranges done journal.source.self.position := by
      cases stage with
      | idle | ended => exact stands
      | polled | ready => exact .inl stands
      | committed | saved => exact .inr stands
    rcases ended with rfl | rfl <;> exact ⟨complete,stands⟩

namespace Chronicle

section
variable (chronicle : Chronicle publisher setup env config journal)
include chronicle

lemma bounded : Bounded journal.source.server :=
  ⟨chronicle.shown,chronicle.limit⟩

lemma moved (recorded resume process) (standing : Standing publisher setup {journal with recorded,resume,process}) :
    Chronicle publisher setup env config {journal with recorded,resume,process} :=
  chronicle.sourced journal.source recorded resume process chronicle.tracks chronicle.bounded (.inl rfl) standing

lemma rest : Chronicle publisher setup env config journal.rest := by
  apply chronicle.moved journal.recorded journal.resume _
  cases process : journal.process with
  | down => trivial
  | starting walked =>
    have standing := chronicle.standing
    unfold Standing at standing
    rw [process] at standing
    exact standing
  | up done stage => exact (chronicle.up process).ended (.inl rfl) _

lemma abandons (here : journal.process = .up done stage) :
    Chronicle publisher setup env config {journal with process := .up done .ended} :=
  chronicle.moved _ _ _ ((chronicle.up here).ended (.inr rfl) _)

lemma writes (sound : Sound journal) (here : journal.process = .up done (.polled batches))
    (prepares : Prepares env config batches rows) (acknowledged : Bool) :
    Chronicle publisher setup env config {journal with
      held := land journal.held (done + 1) rows
      process := .up done (if acknowledged then .ready else .polled batches)} := by
  have up := chronicle.up here
  obtain ⟨range,there,carries⟩ := up.staged
  have below : ∀ item ∈ journal.held, item.1 ≤ done + 1 := fun item mem =>
    le_trans (sound.held item mem).2 up.ranges
  have kept : ∀ place, Landed publisher setup journal place → Landed publisher setup {journal with
      held := land journal.held (done + 1) rows
      process := .up done (if acknowledged then .ready else .polled batches)} place := by
    rintro place (⟨rows',mem⟩ | empty)
    · exact .inl ⟨rows',mem_land_of_mem mem⟩
    · exact .inr empty
  refine ⟨chronicle.tracks,chronicle.shown,chronicle.limit,chronicle.shaped,chronicle.marks,
    chronicle.settled,fun item mem => ?_,fun place inside => kept _ (chronicle.landed place inside),?_⟩
  · rcases mem_land mem with old | rfl
    · exact chronicle.held item old
    · exact ⟨range,_,batches,there,le_rfl,carries,prepares⟩
  · have ready : Landed publisher setup {journal with
        held := land journal.held (done + 1) rows
        process := .up done .ready} done := .inl (land_has (Nat.succ_pos _) below)
    refine ⟨up.ranges,up.positions,up.snapshotDone,up.position,?_,fun reading => ?_,fun finished => ?_⟩
    · cases acknowledged with
      | true => exact ready
      | false => exact ⟨range,there,carries⟩
    · have snapshotting := up.snapshotting reading
      exact ⟨snapshotting.session,snapshotting.position,snapshotting.passed,snapshotting.pending,
        snapshotting.committed,fun _ => snapshotting.opened (.inl ⟨_,rfl⟩)⟩
    · obtain ⟨complete,stands⟩ := up.following finished
      cases acknowledged <;> exact ⟨complete,stands⟩

lemma skips (here : journal.process = .up done (.polled batches)) (empty : totalRows batches = 0) :
    Chronicle publisher setup env config {journal with process := .up done .ready} := by
  have up := chronicle.up here
  obtain ⟨range,there,carries⟩ := up.staged
  refine chronicle.moved _ _ _ ⟨up.ranges,up.positions,up.snapshotDone,up.position,?_,
    fun reading => ?_,fun finished => ?_⟩
  · exact .inr ⟨range,_,batches,there,le_rfl,carries,empty⟩
  · have snapshotting := up.snapshotting reading
    exact ⟨snapshotting.session,snapshotting.position,snapshotting.passed,snapshotting.pending,
      snapshotting.committed,fun _ => snapshotting.opened (.inl ⟨_,rfl⟩)⟩
  · obtain ⟨complete,stands⟩ := up.following finished
    exact ⟨complete,stands⟩

lemma no_spans (sound : Sound journal) (here : journal.process = .up done stage)
    (reading : ¬ Finished setup journal.positions done) :
    journal.ranges.filterMap spanOf = [] := by
  rw [filterMap_eq_nil_iff]
  intro range mem
  obtain ⟨place,there⟩ := getElem?_of_mem mem
  have inside : place < journal.ranges.length := (List.getElem?_eq_some_iff.mp there).1
  have few := (chronicle.up here).ranges
  rcases chronicle.shaped place range there with ⟨_,index,planned,rfl,_⟩ | ⟨finished,_⟩
  · exact spanOf_snapshotRange
  · exact absurd (chronicle.settled place done finished (by omega) (sound.up _ _ here).2.1) reading

lemma ahead_reached (here : journal.process = .up done stage)
    (finished : Finished setup journal.positions done) (ahead : Ahead journal done) :
    (∃ first, Reached publisher setup journal.source.server.point journal.ranges done first) ∧
      Reached publisher setup journal.source.server.point journal.ranges (done + 1) journal.source.self.position := by
  obtain ⟨first,last,there,atEnd⟩ := ahead
  rcases chronicle.shaped done _ there with ⟨reading,_⟩ | ⟨_,first',last',same,recorded,reached⟩
  · exact absurd finished reading
  · have ends := congrArg (·.end[lsnKey]?) same
    rw [same] at there
    refine ⟨⟨_,reached⟩,?_⟩
    have reached := reached.snoc recorded there
    simp only [lsnRange_end,Option.some.injEq] at ends
    have small := recorded.small
    have low := (chronicle.up here).position
    unfold lsnLimit at low
    rw [atEnd] at low ⊢
    rwa [Lsn.asI64_inj (by omega) small ends]

lemma reaches (sound : Sound journal) (here : journal.process = .up done .ready)
    (complete : setup.tables.length ≤ journal.source.self.snapshotDone) :
    Reached publisher setup journal.source.server.point journal.ranges (done + 1) journal.source.self.position := by
  have up := chronicle.up here
  by_cases finished : Finished setup journal.positions done
  · exact (chronicle.ahead_reached here finished (up.following finished).stands).2
  · have snapshotting := up.snapshotting finished
    have slotted : Slotted setup journal.source.self := .inr complete
    refine ⟨fun index less => ?_,?_⟩
    · rw [take_of_length_le up.ranges]
      exact snapshotting.passed slotted index (lt_of_lt_of_le less complete)
    · rw [take_of_length_le up.ranges,chronicle.no_spans sound here finished,snapshotting.position slotted]
      exact ⟨le_rfl,Publisher.eventsIn_self⟩

lemma commits (valid : setup.Valid) (sound : Sound journal) (here : journal.process = .up done .ready)
    (acknowledged : Bool) :
    Chronicle publisher setup env config {journal with
      positions := put journal.positions done (some journal.source.self.committedOffsets)
      process := if acknowledged then .up (done + 1) (.committed (some journal.source.self.committedOffsets))
        else .up done .ended} := by
  have up := chronicle.up here
  have high := (sound.up _ _ here).2.1
  have few := up.ranges
  have logged := up.positions
  have number := up.snapshotDone
  have addressable := valid.addressable
  have position := up.position
  have restores := restored_committed (show journal.source.self.snapshotDone < 2^63 by omega)
    (show journal.source.self.position < 2^63 by unfold lsnLimit at position; omega)
  have length := put_length high (some journal.source.self.committedOffsets)
  have same : ∀ place, place ≤ done →
      (Finished setup (put journal.positions done (some journal.source.self.committedOffsets)) place ↔
        Finished setup journal.positions place) := by
    intro place small
    rw [finished_put high,if_neg (by omega)]
  have last : Finished setup (put journal.positions done (some journal.source.self.committedOffsets))
      (done + 1) ↔ setup.tables.length ≤ journal.source.self.snapshotDone := by
    rw [finished_put high,if_pos rfl,restores]
  refine ⟨chronicle.tracks,chronicle.shown,chronicle.limit,fun place range there => ?_,
    fun place position there => ?_,fun place later finished below inside => ?_,chronicle.held,
    fun place inside => ?_,?_⟩
  · have inside : place < journal.ranges.length := (List.getElem?_eq_some_iff.mp there).1
    have shaped := chronicle.shaped place range there
    unfold Shaped at shaped ⊢
    rwa [same place (by omega)]
  · rw [put_getElem? high] at there
    split at there
    · next here' =>
      cases there
      refine ⟨_,rfl,?_,?_,fun complete => ?_⟩
      · rw [restores]
        exact number
      · rw [restores]
        exact up.position
      · rw [restores] at complete ⊢
        rw [here']
        exact chronicle.reaches sound here complete
    · exact chronicle.marks place position there
  · dsimp only at finished inside ⊢
    rcases lt_or_ge done later with beyond | within
    · obtain rfl : later = done + 1 := by omega
      rw [last]
      rcases lt_or_ge done place with beyond | within
      · obtain rfl : place = done + 1 := by omega
        exact last.mp finished
      · exact (up.following (chronicle.settled place done ((same place within).mp finished) within high)).complete
    · rw [same later within]
      rw [same place (by omega)] at finished
      exact chronicle.settled place later finished below (by omega)
  · dsimp only at inside
    rcases lt_or_ge place done with before | beyond
    · exact chronicle.landed place (by omega)
    · obtain rfl : place = done := by omega
      exact up.staged
  · have session (incomplete : ¬ setup.tables.length ≤ journal.source.self.snapshotDone) :=
      up.snapshotting fun finished => incomplete (up.following finished).complete
    cases acknowledged with
    | true =>
      refine ⟨by dsimp only; omega,by dsimp only; omega,number,up.position,trivial,
        fun reading => ?_,fun finished => ?_⟩
      · rw [last] at reading
        obtain ⟨session,position,passed,pending,_,_⟩ := session reading
        refine ⟨session,position,passed,fun complete => absurd complete reading,fun finished => ?_,?_⟩
        · obtain ⟨offsets,there,_⟩ := finished
          have := (List.getElem?_eq_some_iff.mp there).1
          dsimp only at this
          omega
        · rintro (⟨_,other⟩ | other) <;> cases other
      · have complete := last.mp finished
        exact ⟨complete,chronicle.reaches sound here complete⟩
    | false =>
      refine ⟨up.ranges,by dsimp only; omega,number,up.position,trivial,fun reading => ?_,fun finished => ?_⟩
      · rw [same done le_rfl] at reading
        obtain ⟨session,position,passed,pending,_,_⟩ := up.snapshotting reading
        refine ⟨session,position,passed,pending,last.mp,?_⟩
        rintro (⟨_,other⟩ | other) <;> cases other
      · rw [same done le_rfl] at finished
        obtain ⟨complete,stands⟩ := up.following finished
        exact ⟨complete,.inl stands⟩

lemma saves (here : journal.process = .up done (.committed offsets)) (acknowledged : Bool) :
    Chronicle publisher setup env config {journal with
      recorded := done
      resume := offsets
      process := .up done (if acknowledged then .saved else .ended)} := by
  have up := chronicle.up here
  refine chronicle.moved _ _ _ ⟨up.ranges,up.positions,up.snapshotDone,up.position,?_,
    fun reading => ?_,fun finished => ?_⟩
  · cases acknowledged <;> trivial
  · have snapshotting := up.snapshotting reading
    refine ⟨snapshotting.session,snapshotting.position,snapshotting.passed,snapshotting.pending,
      snapshotting.committed,?_⟩
    cases acknowledged <;> rintro (⟨_,other⟩ | other) <;> cases other
  · obtain ⟨complete,stands⟩ := up.following finished
    cases acknowledged with
    | true => exact ⟨complete,stands⟩
    | false => exact ⟨complete,.inr stands⟩

end

lemma durable_slot (tracks : state.Tracks publisher setup)
    (called : (publisher.source setup).markDurable input state = (result,final)) :
    final.Tracks publisher setup ∧ final.self.position = state.self.position ∧
      final.self.snapshotDone = state.self.snapshotDone ∧ final.server.point = state.server.point ∧
      (Slotted setup final.self → Slotted setup state.self) := by
  have marking := tracks
  obtain ⟨_,⟨tracks,position,number,_,point,_⟩,opened⟩ := called_ensures (fun _ => markDurable setup) called
    (Act.ensures_and (markDurable_ensures marking) (markDurable_opened marking))
  exact ⟨tracks,position,number,point,Or.imp opened ((show _ = _ from number) ▸ ·)⟩

section
variable (chronicle : Chronicle publisher setup env config journal)
include chronicle

lemma confirms (here : journal.process = .up done .saved) (input : List WireChoice)
    (called : (publisher.source setup).markDurable input journal.source = (result,state)) :
    Chronicle publisher setup env config {journal with source := state,process := .up done .ended} := by
  have up := chronicle.up here
  have bounded := @call_bounded publisher setup _ (fun _ => markDurable setup) input _ chronicle.bounded
  have quiet (gone : journal.source.server.session = none) :=
    call_ensures (fun _ => markDurable setup) input journal.source
      (@markDurable_silent publisher setup journal.source.self ⟨input,journal.source.server⟩ gone)
  obtain ⟨tracks,position,number,point,slotted⟩ := durable_slot chronicle.tracks called
  change publisher.call setup (fun _ => markDurable setup) input journal.source = _ at called
  rw [called] at bounded quiet
  refine chronicle.sourced _ _ _ _ tracks bounded (.inl point)
    ⟨up.ranges,up.positions,number ▸ up.snapshotDone,position ▸ up.position,trivial,
      fun reading => ?_,fun finished => ?_⟩
  · obtain ⟨session,atPoint,passed,pending,committed,_⟩ := up.snapshotting reading
    obtain ⟨_,silent⟩ := quiet session
    refine ⟨silent.session,fun is => ?_,fun is index less => ?_,fun complete => ?_,fun finished => ?_,?_⟩
    · rw [position,point]
      exact atPoint (slotted is)
    · rw [number] at less
      rw [point]
      exact passed (slotted is) index less
    · rw [number] at complete
      rw [point]
      exact pending complete
    · rw [number]
      exact committed finished
    · rintro (⟨_,other⟩ | other) <;> cases other
  · obtain ⟨complete,stands⟩ := up.following finished
    refine ⟨number ▸ complete,.inr ?_⟩
    rw [position,point]
    exact stands

lemma crashes : Chronicle publisher setup env config {journal with process := .down} :=
  chronicle.moved _ _ _ trivial

lemma builds :
    Chronicle publisher setup env config
      {journal with source := Publisher.build journal.source,process := .starting 0} :=
  chronicle.sourced _ _ _ _ (Tracks.fresh publisher setup _ ⟨"",∅⟩) ⟨chronicle.shown,chronicle.limit⟩
    (.inl rfl) ⟨rfl,rfl⟩

lemma recovers (here : journal.process = .starting walked) :
    Chronicle publisher setup env config
      {journal with recorded := journal.recorded + 1,resume := some offsets,process := .starting (walked + 1)} := by
  have standing := chronicle.standing
  unfold Standing at standing
  rw [here] at standing
  exact chronicle.moved _ _ _ standing

lemma fresh (here : journal.process = .starting walked) :
    journal.source.self = {} ∧ journal.source.server.session = none := by
  have standing := chronicle.standing
  unfold Standing at standing
  rwa [here] at standing

lemma restored_source (here : journal.process = .starting walked) :
    (publisher.source setup).restoreOffsets offsets journal.source = ⟨restored offsets,journal.source.server⟩ := by
  change (⟨journal.source.self.restoreOffsets offsets,_⟩ : State) = _
  rw [(chronicle.fresh here).1]
  rfl

lemma closed (valid : setup.Valid) (sound : Sound journal) (here : journal.process = .starting walked)
    (reading : ¬ Finished setup journal.positions journal.recorded) :
    ¬ Slotted setup
      (journal.resume.elim journal.source ((publisher.source setup).restoreOffsets · journal.source)).self := by
  rcases sound.resume with ⟨zero,empty⟩ | ⟨some,there⟩
  · rw [empty,elim_none,(chronicle.fresh here).1]
    rintro (opened | complete)
    · cases opened
    · exact valid.tables (eq_nil_of_length_eq_zero (Nat.le_zero.mp complete))
  · obtain ⟨offsets,resume,_⟩ := chronicle.marks _ _ there
    rw [resume,elim_some,chronicle.restored_source here]
    have opened : (restored offsets).opened = false := by
      unfold restored restoreOffsets
      split <;> rfl
    rintro (is | complete)
    · cases opened.symm.trans is
    · apply reading
      rw [← Nat.sub_add_cancel some]
      exact ⟨offsets,resume ▸ there,complete⟩

lemma resumes (valid : setup.Valid) (sound : Sound journal) (here : journal.process = .starting walked)
    (caughtUp : journal.positions.length ≤ journal.recorded) :
    Chronicle publisher setup env config {journal with
      source := journal.resume.elim journal.source ((publisher.source setup).restoreOffsets · journal.source)
      process := .up journal.recorded .idle} := by
  obtain ⟨fresh,session⟩ := chronicle.fresh here
  have planned := sound.oneAhead
  have none : journal.positions[journal.recorded]? = none := getElem?_eq_none caughtUp
  have last : ¬ Finished setup journal.positions (journal.recorded + 1) := by
    rintro ⟨offsets,there,_⟩
    rw [none] at there
    cases there
  have server : (journal.resume.elim journal.source
      ((publisher.source setup).restoreOffsets · journal.source)).server = journal.source.server := by
    cases journal.resume <;> rfl
  have snapshotting (reading : ¬ Finished setup journal.positions journal.recorded) : Snapshotting setup {journal with
        source := journal.resume.elim journal.source ((publisher.source setup).restoreOffsets · journal.source)
        process := .up journal.recorded .idle} journal.recorded .idle := by
    have closed := chronicle.closed valid sound here reading
    refine ⟨server ▸ session,fun is => absurd is closed,fun is => absurd is closed,
      fun complete => absurd (.inr complete) closed,fun finished => absurd finished last,?_⟩
    rintro (⟨_,other⟩ | other) <;> cases other
  rcases sound.resume with ⟨zero,empty⟩ | ⟨some,there⟩
  · rw [empty] at snapshotting ⊢
    refine chronicle.sourced _ _ _ _ chronicle.tracks chronicle.bounded (.inl rfl)
      ⟨by dsimp only; omega,by dsimp only; omega,?_,?_,trivial,snapshotting,fun finished => ?_⟩
    · simp only [elim_none,fresh]
      exact Nat.zero_le _
    · simp only [elim_none,fresh]
      exact Nat.zero_le _
    · rw [zero] at finished
      exact finished.elim
  · obtain ⟨offsets,resume,number,position,reached⟩ := chronicle.marks _ _ there
    rw [resume,elim_some,chronicle.restored_source here] at snapshotting ⊢
    refine chronicle.sourced _ _ _ _ (Tracks.fresh publisher setup _ offsets) chronicle.bounded (.inl rfl)
      ⟨by dsimp only; omega,by dsimp only; omega,number,position,trivial,snapshotting,fun finished => ?_⟩
    have complete : setup.tables.length ≤ (restored offsets).snapshotDone := by
      rw [← Nat.sub_add_cancel some] at finished
      obtain ⟨found,there',complete⟩ := finished
      rw [there,resume] at there'
      cases there'
      exact complete
    refine ⟨complete,.inr ?_⟩
    have reached := reached complete
    rwa [Nat.sub_add_cancel some] at reached

end

end Chronicle
end Moves

section Runs
variable {after : Journal State}

def environment (publisher : Publisher) (setup : Setup) (plan : List RecordBatch → List RecordBatch)
    (violations : String → List RecordBatch → Nat) (mayFail : Oxidant.Streaming.Request → Bool) :
    Environment State (List WireChoice) where
  source := publisher.source setup
  build := Publisher.build
  plan
  violations
  mayFail

def Walkable {σ : Type} (journal : Journal σ) : Prop :=
  journal.positions.length + (match journal.process with
    | .starting walked => walked
    | _ => 0) ≤ journal.recorded + StreamingQueryManager.maxRecovered

lemma Chronicle.starts (valid : setup.Valid)
    (step : Step (restrict (environment publisher setup plan violations mayFail) good) config journal
        .starting after)
    (sound : Sound journal) (walkable : Walkable journal)
    (chronicle : Chronicle publisher setup (environment publisher setup plan violations mayFail) config journal) :
    Walkable after ∧
    Chronicle publisher setup (environment publisher setup plan violations mayFail) config after := by
  unfold Walkable at walkable
  cases step with
  | crash =>
    refine ⟨?_,chronicle.crashes⟩
    unfold Walkable
    dsimp only
    omega
  | build down =>
    refine ⟨?_,chronicle.builds⟩
    rw [down] at walkable
    exact walkable
  | recover starting committed =>
    refine ⟨?_,chronicle.recovers starting⟩
    rw [starting] at walkable
    unfold Walkable
    dsimp only at walkable ⊢
    omega
  | start starting walk =>
    rw [starting] at walkable
    dsimp only at walkable
    have caughtUp : journal.positions.length ≤ journal.recorded := by
      rcases walk with rfl | ends
      · omega
      · refine Nat.le_of_not_lt fun less => ?_
        have there := getElem?_eq_getElem less
        obtain ⟨offsets,same,_⟩ := chronicle.marks _ _ there
        exact ends offsets (there.trans (congrArg Option.some same))
    refine ⟨?_,chronicle.resumes valid sound starting caughtUp⟩
    unfold Walkable
    dsimp only
    omega

lemma Chronicle.runs [Unrenamed publisher] (valid : setup.Valid)
    (step : Step (restrict (environment publisher setup plan violations mayFail) good) config journal
        .running after)
    (sound : Sound journal)
    (chronicle : Chronicle publisher setup (environment publisher setup plan violations mayFail) config journal) :
    Chronicle publisher setup (environment publisher setup plan violations mayFail) config after := by
  cases step with
  | crash => exact chronicle.crashes
  | abandon up => exact chronicle.abandons up
  | plan up last input => exact (chronicle.plans valid sound up last input.1).1
  | record up last input answer some =>
    obtain ⟨planned,shaped⟩ := chronicle.plans valid sound up last input.1
    have high := (sound.up _ _ up).2.1
    have ahead := sound.planned
    exact planned.recorded up (by dsimp only; omega) (by dsimp only; omega) (shaped _ answer some)
  | miss up there input answer => exact chronicle.polls valid sound up there input.1 (Prod.ext answer rfl)
  | poll up there input answer => exact chronicle.polls valid sound up there input.1 (Prod.ext answer rfl)
  | skip up none => exact chronicle.skips up none
  | write up some prepares acknowledged => exact chronicle.writes sound up prepares acknowledged
  | commit up acknowledged => exact chronicle.commits valid sound up acknowledged
  | save up acknowledged => exact chronicle.saves up acknowledged
  | durable up input => exact chronicle.confirms up input.1 rfl

end Runs
end Oxidant.Cdc
