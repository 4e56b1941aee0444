import Oxidant.Cdc.Durability

/-! Snapshot passes: what the source counts of the snapshot was polled as of the consistent point of
its slot, and the stream is read from there. -/
namespace Oxidant.Cdc
open List hiding after count range
open Lib Oxidant.Streaming Oxidant.Streaming.Journal JournalRefinement BatchProtocol PostgresCdcSource

abbrev Polls := List (BatchRange × List RecordBatch)

section Recording
/-- A source with a history of what its polls returned, which nothing reads. -/
def recorder (source : Source σ χ) : Source (σ × Polls) χ where
  planBatch input state :=
    let called := source.planBatch input state.1
    (called.1,called.2,state.2)
  pollRange input range state :=
    let called := source.pollRange input range state.1
    (called.1,called.2,match called.1 with
      | .ok batches => (range,batches)::state.2
      | .error _ => state.2)
  markDurable input state :=
    let called := source.markDurable input state.1
    (called.1,called.2,state.2)
  committedOffsets state := source.committedOffsets state.1
  restoreOffsets offsets state := (source.restoreOffsets offsets state.1,state.2)

variable {source : Source σ χ}

lemma recorder_ok (answer : (source.pollRange input range state.1).1 = .ok batches) :
    ((recorder source).pollRange input range state).2 =
      ((source.pollRange input range state.1).2,(range,batches)::state.2) := by
  simp only [recorder,answer]

lemma recorder_error (answer : (source.pollRange input range state.1).1 = .error e) :
    ((recorder source).pollRange input range state).2 = ((source.pollRange input range state.1).2,state.2) := by
  simp only [recorder,answer]

lemma recorder_restore (resume : Option SourceOffsets) :
    resume.elim state ((recorder source).restoreOffsets · state) =
      (resume.elim state.1 (source.restoreOffsets · state.1),state.2) := by
  cases resume <;> rfl

def recording (env : Environment σ χ) : Environment (σ × Polls) χ where
  source := recorder env.source
  build state := (env.build state.1,state.2)
  plan := env.plan
  violations := env.violations
  mayFail := env.mayFail

def bare (journal : Journal (σ × Polls)) : Journal σ :=
  ⟨journal.source.1,journal.ranges,journal.positions,journal.held,journal.recorded,journal.resume,journal.process⟩

lemma bare_step (step : Step (restrict (recording env) good) config journal phase after) :
    Step (restrict env good) config (bare journal) phase (bare after) := by
  cases step with
  | crash => exact .crash phase
  | build down => exact .build down
  | recover starting committed => exact @Step.recover _ _ _ _ (bare journal) _ starting _ committed
  | start starting walk =>
    have same := @recorder_restore _ _ env.source journal.source journal.resume
    rw [show (journal.resume.elim journal.source
      ((restrict (recording env) good).source.restoreOffsets · journal.source)) = _ from same]
    exact @Step.start _ _ _ _ (bare journal) _ starting walk
  | abandon up => exact .abandon up
  | plan up last input => exact @Step.plan _ _ _ _ (bare journal) _ up last input
  | record up last input answer some => exact @Step.record _ _ _ _ (bare journal) _ up last input _ answer some
  | miss up there input answer => exact @Step.miss _ _ _ _ (bare journal) _ up _ there input _ answer
  | poll up there input answer => exact @Step.poll _ _ _ _ (bare journal) _ up _ there input _ answer
  | skip up none => exact .skip up none
  | write up some prepares acknowledged =>
    exact @Step.write _ _ (restrict env good) _ (bare journal) _ _ _ up some prepares acknowledged
  | commit up acknowledged => exact @Step.commit _ _ _ _ (bare journal) _ up acknowledged
  | save up acknowledged => exact @Step.save _ _ _ _ (bare journal) _ _ up acknowledged
  | durable up input => exact @Step.durable _ _ _ _ (bare journal) _ up input

lemma sound_bare (sound : Sound journal) : Sound (bare journal) :=
  ⟨sound.planned,sound.oneAhead,sound.recorded,sound.resume,sound.held,fun done stage here =>
    have ⟨low,high,fits⟩ := sound.up done stage here
    ⟨low,high,by cases stage <;> exact fits⟩⟩

end Recording

section Emitting
variable (publisher : Publisher) (setup : Setup) (journal : Journal (State × Polls))

def WasPolled (range : BatchRange) : Prop := ∃ batches, (range,batches) ∈ journal.source.2

def Underway : Stage → Prop
  | .polled _ | .ready => True
  | _ => False

def Past (place : Nat) : Prop :=
  place < journal.positions.length ∨ ∃ stage, journal.process = .up place stage ∧
    (Underway stage ∨ ¬ Finished setup journal.positions place ∧
      Slotted setup journal.source.1.self ∧ ∃ index < journal.source.1.self.snapshotDone,
        journal.ranges[place]? = some (snapshotRange index journal.source.1.server.point))

structure Emitting : Prop where
  told : ∀ entry ∈ journal.source.2, ∃ point ≤ journal.source.1.server.point,
    Carries publisher setup point entry.1 entry.2
  polled : ∀ place range, journal.ranges[place]? = some range → Past setup journal place →
    WasPolled journal range

end Emitting

section Kept
lemma Emitting.moved (emitting : Emitting publisher setup journal) (after)
    (polls : after.source.2 = journal.source.2)
    (later : journal.source.1.server.point ≤ after.source.1.server.point)
    (past : ∀ place range, after.ranges[place]? = some range → Past setup after place →
      journal.ranges[place]? = some range ∧ Past setup journal place) :
    Emitting publisher setup after where
  told entry mem := by
    obtain ⟨point,low,carries⟩ := emitting.told entry (polls ▸ mem)
    exact ⟨point,low.trans later,carries⟩
  polled place range there was := by
    obtain ⟨there,was⟩ := past place range there was
    obtain ⟨batches,mem⟩ := emitting.polled place range there was
    exact ⟨batches,polls ▸ mem⟩

lemma Emitting.settled (emitting : Emitting publisher setup journal) (source)
    (later : journal.source.1.server.point ≤ source.server.point) (recorded resume process)
    (past : ∀ place stage, process = .up place stage →
      Underway stage ∨ ¬ Finished setup journal.positions place ∧ Slotted setup source.self ∧
        (∃ index < source.self.snapshotDone,
          journal.ranges[place]? = some (snapshotRange index source.server.point)) →
      Past setup journal place) :
    Emitting publisher setup {journal with source := (source,journal.source.2),recorded,resume,process} :=
  emitting.moved _ rfl later fun place _ there was => ⟨there,was.elim .inl
    fun ⟨stage,here,which⟩ => past place stage here which⟩

lemma poll_misses (valid : setup.Valid) {state final : State} {index planned : Nat}
    (tracks : state.Tracks publisher setup) (small : index < 2^63)
    (called : (publisher.source setup).pollRange input (snapshotRange index planned) state = (.error e,final)) :
    final.self.snapshotDone = 0 ∨ final.self.snapshotDone = state.self.snapshotDone ∧
      final.server.point = state.server.point ∧ (Slotted setup final.self → Slotted setup state.self) := by
  obtain ⟨_,_,middle,between,enters,wired,_,polled⟩ := called_ensures
    (fun room => pollRange setup room (snapshotRange index planned)) called (pollRange_snapshot _ small tracks)
  rcases polled.failed e rfl with same | ⟨_,zero⟩
  · rcases enters with ⟨steady,stays⟩ | reopened
    · have number : final.self.snapshotDone = state.self.snapshotDone := same.trans steady.snapshotDone
      refine .inr ⟨number,wired.point.trans steady.point,fun slotted => ?_⟩
      rcases lt_or_ge state.self.snapshotDone setup.tables.length with less | complete
      · rcases slotted with opened | complete
        · exact .inl (stays valid.tables less ▸ polled.opened opened)
        · exact absurd (number ▸ complete) (Nat.not_le.mpr less)
      · exact .inr complete
    · exact .inl (same.trans reopened.snapshotDone)
  · exact .inl zero

lemma Emitting.polls (emitting : Emitting publisher setup journal) {source : State} {range : BatchRange}
    {batches : List RecordBatch} (there : journal.ranges[done]? = some range)
    (later : journal.source.1.server.point ≤ source.server.point)
    (carries : Carries publisher setup source.server.point range batches) :
    Emitting publisher setup {journal with
      source := (source,(range,batches)::journal.source.2)
      process := .up done (.polled batches)} where
  told entry mem := by
    rcases mem_cons.mp mem with rfl | mem
    · exact ⟨_,le_rfl,carries⟩
    · obtain ⟨point,low,carries⟩ := emitting.told entry mem
      exact ⟨point,low.trans later,carries⟩
  polled place other found was := by
    rcases was with committed | ⟨stage,here,_⟩
    · obtain ⟨batches,mem⟩ := emitting.polled place other found (.inl committed)
      exact ⟨batches,mem_cons_of_mem _ mem⟩
    · cases here
      cases there.symm.trans found
      exact ⟨batches,mem_cons_self⟩

lemma Emitting.records (emitting : Emitting publisher setup journal) (sound : Sound journal)
    (up : journal.process = .up done .idle) (last : journal.ranges.length ≤ done) {source : State}
    (later : journal.source.1.server.point ≤ source.server.point)
    (chronicle : Chronicle publisher setup (environment publisher setup plan violations mayFail) config
        {bare journal with source})
    (range) :
    Emitting publisher setup
      {journal with source := (source,journal.source.2),ranges := journal.ranges ++ [range]} := by
  have committed : journal.ranges.length ≤ journal.positions.length := last.trans (sound.up _ _ up).2.1
  refine ⟨fun entry mem => ?_,fun place other there was => ?_⟩
  · obtain ⟨point,low,carries⟩ := emitting.told entry mem
    exact ⟨point,low.trans later,carries⟩
  rcases was with before | ⟨stage,here,which⟩
  · have inside : place < journal.ranges.length := lt_of_lt_of_le before sound.planned
    exact emitting.polled place other ((getElem?_append_left inside).symm.trans there) (.inl before)
  · cases here.symm.trans up
    -- What the source counts was recorded before this range, and is committed.
    obtain ⟨reading,slotted,index,less,same⟩ := which.resolve_left id
    have passed := ((chronicle.up up).snapshotting reading).passed slotted index less
    obtain ⟨before,found⟩ := getElem?_of_mem passed
    cases there.symm.trans same
    exact emitting.polled before _ found (.inl (lt_of_lt_of_le (List.getElem?_eq_some_iff.mp found).1 committed))

lemma Emitting.runs [Unrenamed publisher] (valid : setup.Valid)
    (step : Step (restrict (recording (environment publisher setup plan violations mayFail)) good) config journal
        .running after)
    (sound : Sound journal)
    (chronicle : Chronicle publisher setup (environment publisher setup plan violations mayFail) config
        (bare journal))
    (emitting : Emitting publisher setup journal) : Emitting publisher setup after := by
  have bounded := chronicle.bounded
  have held := (sound_bare sound)
  cases step with
  | crash => exact emitting.settled _ le_rfl _ _ _ fun _ _ here => by cases here
  | abandon up =>
    refine emitting.settled _ le_rfl _ _ _ fun place stage here which => ?_
    cases here
    exact .inr ⟨_,up,.inr (which.resolve_left id)⟩
  | plan up last input =>
    refine emitting.settled _ (call_since (fun room => planBatch setup room) input.1 bounded).since _ _ _
      fun place stage here which => ?_
    cases up.symm.trans here
    obtain ⟨_,_,_,_,there⟩ := which.resolve_left id
    exact absurd (List.getElem?_eq_some_iff.mp there).1 (Nat.not_lt.mpr last)
  | record up last input answer some =>
    exact emitting.records sound up last (call_since (fun room => planBatch setup room) input.1 bounded).since
      (chronicle.plans valid held up last input.1).1 _
  | @miss done up range there input e answer =>
    have answer : ((publisher.source setup).pollRange input.1 range journal.source.1).1 = .error e := answer
    change Emitting publisher setup {journal with
      source := ((recorder (publisher.source setup)).pollRange input.1 range journal.source).2}
    rw [recorder_error answer]
    refine emitting.settled _ (call_since (fun room => pollRange setup room range) input.1 bounded).since
      _ _ _ fun place stage here which => ?_
    cases up.symm.trans here
    obtain ⟨reading,slotted,index,less,same⟩ := which.resolve_left id
    rcases chronicle.shaped done range there with ⟨_,number,planned,rfl,small,_⟩ | ⟨finished,_⟩
    · have addressable := valid.addressable
      rcases poll_misses valid chronicle.tracks (by omega) (Prod.ext answer rfl) with zero | kept
      · exact absurd (zero ▸ less) (Nat.not_lt_zero _)
      · obtain ⟨number,point,slots⟩ := kept
        exact .inr ⟨_,up,.inr ⟨reading,slots slotted,index,number ▸ less,
          same.trans (congrArg (fun point => some (snapshotRange index point)) point)⟩⟩
    · exact absurd finished reading
  | @poll done up range there input batches answer =>
    obtain ⟨_,there',carries⟩ := (Chronicle.up (chronicle.polls valid held up there input.1
      (Prod.ext answer rfl)) rfl).staged
    cases there.symm.trans there'
    change Emitting publisher setup {journal with
      source := ((recorder (publisher.source setup)).pollRange input.1 range journal.source).2
      process := .up done (.polled batches)}
    rw [recorder_ok answer]
    exact emitting.polls there (call_since (fun room => pollRange setup room range) input.1 bounded).since carries
  | skip up none =>
    refine emitting.settled _ le_rfl _ _ _ fun place stage here which => ?_
    cases here
    exact .inr ⟨_,up,.inl trivial⟩
  | write up some prepares acknowledged =>
    refine emitting.moved _ rfl le_rfl fun place _ there was => ⟨there,was.imp id ?_⟩
    rintro ⟨stage,here,_⟩
    cases here
    exact ⟨_,up,.inl trivial⟩
  | @commit done up acknowledged =>
    have high := (sound.up _ _ up).2.1
    have few := (chronicle.up up).ranges
    refine emitting.moved _ rfl le_rfl fun place range there was => ⟨there,?_⟩
    have ready : Past setup journal done := .inr ⟨_,up,.inl trivial⟩
    have inside : place < journal.ranges.length := (List.getElem?_eq_some_iff.mp there).1
    have few : journal.ranges.length ≤ done + 1 := few
    rcases lt_or_ge place done with before | beyond
    · exact .inl (lt_of_lt_of_le before high)
    · obtain rfl : place = done := by omega
      exact ready
  | save up acknowledged =>
    refine emitting.settled _ le_rfl _ _ _ fun place stage here which => ?_
    cases here
    exact .inr ⟨_,up,.inr (which.resolve_left (by cases acknowledged <;> exact id))⟩
  | durable up input =>
    obtain ⟨_,_,number,point,slots⟩ := Chronicle.durable_slot chronicle.tracks
      (rfl : (publisher.source setup).markDurable input.1 journal.source.1 = _)
    refine emitting.settled _ (le_of_eq point.symm) _ _ _ fun place stage here which => ?_
    cases here
    obtain ⟨reading,slotted,index,less,same⟩ := which.resolve_left id
    exact .inr ⟨_,up,.inr ⟨reading,slots slotted,index,number ▸ less,
      same.trans (congrArg (fun point => some (snapshotRange index point)) point)⟩⟩

lemma Emitting.starts (valid : setup.Valid)
    (step : Step (restrict (recording (environment publisher setup plan violations mayFail)) good) config journal
        .starting after)
    (sound : Sound journal)
    (chronicle : Chronicle publisher setup (environment publisher setup plan violations mayFail) config
        (bare journal))
    (emitting : Emitting publisher setup journal) : Emitting publisher setup after := by
  cases step with
  | crash => exact emitting.settled _ le_rfl _ _ .down fun _ _ here => by cases here
  | build =>
    exact emitting.settled (Publisher.build journal.source.1) le_rfl _ _ (.starting 0) fun _ _ here => by cases here
  | recover => exact emitting.settled _ le_rfl _ _ (.starting _) fun _ _ here => by cases here
  | start starting =>
    have same := @recorder_restore _ _ (publisher.source setup) journal.source journal.resume
    rw [show (journal.resume.elim journal.source
      ((restrict (recording (environment publisher setup plan violations mayFail)) good).source.restoreOffsets
        · journal.source)) = _ from same]
    have server : (journal.resume.elim journal.source.1
        ((publisher.source setup).restoreOffsets · journal.source.1)).server = journal.source.1.server := by
      cases journal.resume <;> rfl
    refine emitting.settled _ (le_of_eq (by rw [server])) _ _ _ fun place stage here which => ?_
    cases here
    obtain ⟨reading,slotted,_⟩ := which.resolve_left id
    exact absurd slotted (chronicle.closed valid (sound_bare sound) starting reading)

/-- What the run of a query says of the snapshot while its slot is open. -/
structure Consistent (publisher : Publisher) (setup : Setup) (world : World (State × Polls))
    (batchId : Nat) : Prop where
  /-- Every table that is counted was polled as of the slot's consistent point. -/
  emitted : world.source.1.self.opened = true → ∀ index < world.source.1.self.snapshotDone,
    ∃ table batches, setup.tables[index]? = some table ∧
      (snapshotRange index world.source.1.server.point,batches) ∈ world.source.2 ∧
      Sliced setup world.source.1.server.point
        (publisher.tableAt world.source.1.server.point table) batches
  position : world.source.1.self.opened = true →
    world.source.1.self.snapshotDone < setup.tables.length →
    world.source.1.self.position = world.source.1.server.point
  waits : world.source.1.server.session ≠ none →
    setup.tables.length ≤ world.source.1.self.snapshotDone
  /-- From the point on, the position is reached through ranges of the stream. -/
  streams : world.source.1.self.opened = true →
    setup.tables.length ≤ world.source.1.self.snapshotDone →
    ∃ spans, (∀ span ∈ spans, ∃ range ∈ world.history ++ (world.disk.planned (batchId + 1)).toList,
      spanOf range = some span) ∧
      Follow publisher setup world.source.1.server.point spans world.source.1.self.position

lemma Emitting.counted (valid : setup.Valid) (emitting : Emitting publisher setup journal)
    (chronicle : Chronicle publisher setup (environment publisher setup plan violations mayFail) config
        (bare journal))
    (sound : Sound journal) (up : journal.process = .up done .idle) (slotted : Slotted setup journal.source.1.self)
    (less : index < journal.source.1.self.snapshotDone) :
    ∃ table batches, setup.tables[index]? = some table ∧
      (snapshotRange index journal.source.1.server.point,batches) ∈ journal.source.2 ∧
      Sliced setup journal.source.1.server.point (publisher.tableAt journal.source.1.server.point table)
        batches := by
  have here := chronicle.up up
  have small : index < setup.tables.length := lt_of_lt_of_le less here.snapshotDone
  have high := (sound.up _ _ up).2.1
  have few : journal.ranges.length ≤ done + 1 := here.ranges
  obtain ⟨batches,mem⟩ : WasPolled journal (snapshotRange index journal.source.1.server.point) := by
    by_cases finished : Finished setup journal.positions done
    · obtain ⟨first,reached⟩ : ∃ first, Reached publisher setup journal.source.1.server.point
          journal.ranges done first := by
        rcases (here.following finished).stands with ahead | reached
        · exact (chronicle.ahead_reached up finished ahead).1
        · exact ⟨_,reached⟩
      obtain ⟨place,there⟩ := getElem?_of_mem (reached.passed index small)
      have inside : place < done := by
        have := (List.getElem?_eq_some_iff.mp there).1
        rw [length_take] at this
        omega
      rw [getElem?_take_of_lt inside] at there
      exact emitting.polled place _ there (.inl (lt_of_lt_of_le inside high))
    · obtain ⟨place,there⟩ := getElem?_of_mem ((here.snapshotting finished).passed slotted index less)
      apply emitting.polled place _ there
      have inside : place < journal.ranges.length := (List.getElem?_eq_some_iff.mp there).1
      rcases lt_or_ge place done with before | beyond
      · exact .inl (lt_of_lt_of_le before high)
      · obtain rfl : place = done := by omega
        exact .inr ⟨_,up,.inr ⟨finished,slotted,index,less,there⟩⟩
  obtain ⟨point,low,carries⟩ := emitting.told _ mem
  obtain ⟨table,found,sliced⟩ := carries.sliced valid low small (chronicle.shown.trans chronicle.limit)
  exact ⟨table,batches,found,mem,sliced⟩

lemma Emitting.consistent (valid : setup.Valid) (emitting : Emitting publisher setup journal)
    (chronicle : Chronicle publisher setup (environment publisher setup plan violations mayFail) config
        (bare journal))
    (presents : Presents config ⟨world,some rt⟩ journal) : Consistent publisher setup world rt.batchId := by
  have up : journal.process = .up rt.batchId .idle := presents.process
  have here := chronicle.up up
  have source := presents.shows_.source
  have high := (presents.sound.up _ _ up).2.1
  have low := (presents.sound.up _ _ up).1
  refine ⟨fun opened index less => ?_,fun opened reading => ?_,fun streams => ?_,fun opened complete => ?_⟩
  · rw [source] at opened less ⊢
    exact emitting.counted valid chronicle presents.sound up (.inl opened) less
  · rw [source] at opened reading ⊢
    exact (here.snapshotting fun finished => Nat.not_le.mpr reading
      (here.following finished).complete).position (.inl opened)
  · rw [source] at streams ⊢
    by_cases finished : Finished setup journal.positions rt.batchId
    · exact (here.following finished).complete
    · exact absurd (here.snapshotting finished).session streams
  · rw [source] at opened complete ⊢
    obtain ⟨count,few,reached⟩ : ∃ count ≤ rt.batchId + 1, Follow publisher setup
        journal.source.1.server.point ((journal.ranges.take count).filterMap spanOf)
          journal.source.1.self.position := by
      by_cases finished : Finished setup journal.positions rt.batchId
      · rcases (here.following finished).stands with ahead | reached
        · exact ⟨_,le_rfl,(chronicle.ahead_reached up finished ahead).2.follows⟩
        · exact ⟨_,Nat.le_succ _,reached.follows⟩
      · refine ⟨0,Nat.zero_le _,?_⟩
        have stands : journal.source.1.self.position = journal.source.1.server.point :=
          (here.snapshotting finished).position (.inl opened)
        rw [stands]
        exact ⟨le_rfl,Publisher.eventsIn_self⟩
    refine ⟨_,fun span mem => ?_,reached⟩
    obtain ⟨range,among,same⟩ := mem_filterMap.mp mem
    refine ⟨range,?_,same⟩
    obtain ⟨place,there⟩ := getElem?_of_mem among
    have inside : place < count := by
      have := (List.getElem?_eq_some_iff.mp there).1
      rw [length_take] at this
      omega
    rw [getElem?_take_of_lt inside] at there
    rcases lt_or_ge place rt.batchId with before | beyond
    · apply mem_append_left
      rw [presents.shows_.history]
      exact mem_of_getElem? ((getElem?_take_of_lt (by omega)).trans there)
    · obtain rfl : place = rt.batchId := by omega
      apply mem_append_right
      rw [presents.shows_.planned _ (by omega),Nat.add_sub_cancel,there]
      exact mem_singleton_self _

def FindsEnd {σ χ : Type} : Sys σ → Action χ → Prop
  | ⟨world,_⟩,.start _ _ => (world.disk.commits
      (world.disk.committed + StreamingQueryManager.maxRecovered + 1)).isNone = true
  | _,_ => True

instance {σ χ : Type} : (sys : Sys σ) → (action : Action χ) → Decidable (FindsEnd sys action)
  | _,.start _ _ => inferInstanceAs (Decidable (_ = true))
  | _,.batch _ | _,.stop | _,.crash => .isTrue trivial

lemma Emitting.kept [Unrenamed publisher] (valid : setup.Valid) (reads : mayFail .getOffsets = false)
    (below : LogPruning.PrunesBelow sys action) (ends : FindsEnd sys action)
    (presents : Presents config sys journal)
    (chronicle : Chronicle publisher setup (environment publisher setup plan violations mayFail) config
        (bare journal))
    (emitting : Emitting publisher setup journal) :
    ∃ after, Presents config
        (sys.step (recording (environment publisher setup plan violations mayFail)) config action) after ∧
      Chronicle publisher setup (environment publisher setup plan violations mayFail) config (bare after) ∧
      Emitting publisher setup after := by
  have rested {last : Journal (State × Polls)} (emitting : Emitting publisher setup last) :
      Emitting publisher setup last.rest := by
    refine emitting.moved _ rfl le_rfl fun place _ there was => ⟨there,was.imp id ?_⟩
    rintro ⟨stage,here,which⟩
    unfold Journal.rest at here
    cases process : last.process with
    | up number stage' =>
      rw [process] at here
      cases here
      exact ⟨_,rfl,.inr (which.resolve_left id)⟩
    | down | starting =>
      rw [process] at here
      cases here
  refine action_kept reads below presents ⟨chronicle,emitting⟩
    ⟨chronicle.crashes,emitting.settled _ le_rfl _ _ .down nofun⟩
    (fun id choices same => ?_) fun rt choices up same => ?_
  · subst same
    exact ⟨fun journal => Walkable journal ∧
        Chronicle publisher setup (environment publisher setup plan violations mayFail) config
          (bare journal) ∧ Emitting publisher setup journal,
      ⟨walkable_of_ends presents ends,chronicle,emitting⟩,
      fun before after step sound ⟨walkable,chronicle,emitting⟩ =>
        have ⟨reachable,kept⟩ := chronicle.starts valid (bare_step step) (sound_bare sound) walkable
        ⟨reachable,kept,emitting.starts valid step sound chronicle⟩,
      fun last ⟨_,chronicle,emitting⟩ => ⟨chronicle.rest,rested emitting⟩⟩
  · exact ⟨fun _ => True,fun journal =>
        Chronicle publisher setup (environment publisher setup plan violations mayFail) config
          (bare journal) ∧ Emitting publisher setup journal,fun _ _ => trivial,⟨chronicle,emitting⟩,
      fun before after step sound ⟨chronicle,emitting⟩ =>
        ⟨chronicle.runs valid (bare_step step) (sound_bare sound),emitting.runs valid step sound chronicle⟩,
      fun last ⟨chronicle,emitting⟩ => ⟨chronicle.rest,rested emitting⟩⟩

end Kept

/-- If the resume record is read and pruned below and starts find the end of the commit log, the
snapshot is as of one point wherever its slot is open. -/
theorem snapshot_passes_consistent (publisher : Publisher) [Unrenamed publisher] (setup : Setup)
    (valid : setup.Valid) (plan : List RecordBatch → List RecordBatch)
    (violations : String → List RecordBatch → Nat) (mayFail : Oxidant.Streaming.Request → Bool)
    (config : QueryConfig) (reads : mayFail .getOffsets = false) (server : Server) (bounded : Bounded server)
    (actions : List (Action (List WireChoice)))
    (below : Sys.Meets (recording (environment publisher setup plan violations mayFail)) config
        LogPruning.PrunesBelow (initially (⟨{},server⟩,[])) actions)
    (ends : Sys.Meets (recording (environment publisher setup plan violations mayFail)) config FindsEnd
        (initially (⟨{},server⟩,[])) actions)
    (rt : QueryRuntime) :
    let sys := (initially (⟨{},server⟩,[])).run
      (recording (environment publisher setup plan violations mayFail)) config actions
    sys.query = some rt → Consistent publisher setup sys.world rt.batchId := by
  intro sys up
  obtain ⟨journal,presents,chronicle,emitting⟩ := presents_run (fun sys action journal met presents held =>
      Emitting.kept valid reads met.1 met.2 presents held.1 held.2)
    (Sys.meets_and below ends) (presents_initially _)
    (And.intro (chronicle_initially bounded) ⟨nofun,(fun _ _ none => by simp at none)⟩)
  change Presents config sys journal at presents
  obtain ⟨world,query⟩ := sys
  cases up
  exact emitting.consistent valid chronicle presents

namespace Sample

def recordedWorld (mayFail : Oxidant.Streaming.Request → Bool) : Environment (State × Polls) (List WireChoice) :=
  recording (environment publisher setup id (fun _ _ => 0) mayFail)

def streamed : List (Action (List WireChoice)) :=
  [.start ⟨"query","run"⟩ (answered 7 []),.batch (answered 20 (List.replicate 8 {})),
   .batch (answered 20 (List.replicate 8 {serverFlush := 10}))]

def unread : List (Action (List WireChoice)) :=
  streamed ++ [.crash,
   .start ⟨"query","run"⟩ (answered 2 [] ++ {fault := some ⟨.io "503",false⟩,input := []}::answered 7 []),
   .batch (answered 20 ({point := 30}::List.replicate 8 {})),
   .batch (answered 20 (List.replicate 8 {serverFlush := 10}))]

end Sample

theorem streamed_consistent :
    let sys := (initially (⟨{},{}⟩,[])).run (Sample.recordedWorld LogPruning.savesMayFail)
      RateReplay.passThrough Sample.streamed
    sys.query.isSome = true ∧ ∀ rt, sys.query = some rt →
      Consistent Sample.publisher Sample.setup sys.world rt.batchId :=
  ⟨by decide +kernel,fun rt => snapshot_passes_consistent Sample.publisher Sample.setup
    ⟨by decide,by decide,by decide⟩ id (fun _ _ => 0) LogPruning.savesMayFail RateReplay.passThrough rfl {}
    ⟨by decide,by decide⟩ Sample.streamed (by decide +kernel) (by decide +kernel) rt⟩

/-- The table is read anew at 30; a range of the old log then takes the source back to 10. -/
theorem unread_not_consistent :
    let sys := (initially (⟨{},{}⟩,[])).run (Sample.recordedWorld fun _ => true) RateReplay.passThrough Sample.unread
    ∃ rt, sys.query = some rt ∧ ¬ Consistent Sample.publisher Sample.setup sys.world rt.batchId := by
  intro sys
  have reached : sys.query.isSome = true ∧ sys.world.source.1.self.opened = true ∧
      1 ≤ sys.world.source.1.self.snapshotDone ∧
      sys.world.source.1.self.position < sys.world.source.1.server.point := by decide +kernel
  obtain ⟨rt,up⟩ := Option.isSome_iff_exists.mp reached.1
  refine ⟨rt,up,fun consistent => ?_⟩
  obtain ⟨_,_,follow⟩ := consistent.streams reached.2.1 reached.2.2.1
  exact absurd follow.le (Nat.not_le.mpr reached.2.2.2)

end Oxidant.Cdc
