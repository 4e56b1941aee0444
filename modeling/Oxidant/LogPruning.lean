import Oxidant.JournalRefinement
import Oxidant.RateReplay

/-! What pruning leaves of the logs, in runs in which a save of the resume record may fail and
the query goes on. -/
namespace Oxidant.LogPruning
open Lib Streaming Semantics StreamingQueryManager BatchProtocol JournalRefinement Journal List Act

variable {env : Environment σ χ}

/-- Both entries of every acknowledged batch past the resume record, and for every batch the sink has
the range it was read from. An undisturbed recovery then reaches the last acknowledged batch, up to
its bound. -/
structure Recoverable (env : Environment σ χ) (laws : Replayable env.source env.build) (config : QueryConfig)
    (world : World σ) : Prop where
  retained : ∀ id, world.disk.committed < id → id ≤ world.history.length →
    (world.disk.planned id).isSome ∧ (world.disk.commits id).isSome
  used : ∀ item ∈ world.sink.held, world.disk.committed < item.1 →
    ∃ range, world.disk.planned item.1 = some range ∧ Prepares env config (laws.records range) item.2
  reaches : (recoverFromLog config).Ensures env.undisturbed.reply Anywhere
    (fun result _ _ => ∃ restored, result = .ok restored ∧
      min world.history.length (world.disk.committed + maxRecovered) ≤ restored.committedBatchId) () world

lemma recoverFrom_reaches (state world)
    (logged : ∀ id, world.disk.committed < id → id ≤ world.history.length →
        ∃ commit offsets, world.disk.commits id = some commit ∧ commit.resumePosition = some offsets)
    (stored : world.disk.offsets.getD {} = state) :
    (recoverFrom config bound state).Ensures env.undisturbed.reply Anywhere (fun result _ _ =>
        ∃ restored, result = .ok restored ∧
          min world.history.length (world.disk.committed + bound) ≤ restored.committedBatchId) () world := by
  have number : state.committedBatchId = world.disk.committed := by
    unfold Disk.committed
    rw [stored]
  induction bound generalizing state world with
  | zero => exact ⟨state,rfl,number ▸ min_le_right _ _⟩
  | succ bound ih =>
    unfold recoverFrom
    rw [ensures_bind,ensures_mapError]
    refine loadCommit_ensures _ trivial ?_ fun met => by cases met
    rw [number]
    dsimp only [Except.mapError]
    have last (stops : ∀ commit offsets, world.disk.commits (world.disk.committed + 1) = some commit →
        commit.resumePosition ≠ some offsets) : world.history.length ≤ state.committedBatchId := by
      rw [number]
      refine Nat.le_of_not_lt fun more => ?_
      obtain ⟨commit,offsets,entry,position⟩ := logged _ (Nat.lt_succ_self _) more
      exact stops commit offsets entry position
    cases entry : world.disk.commits (world.disk.committed + 1) with
    | none =>
      refine ⟨state,rfl,le_trans (min_le_left _ _) (last fun commit offsets there => ?_)⟩
      rw [entry] at there
      cases there
    | some commit =>
      dsimp only
      cases position : commit.resumePosition with
      | none =>
        refine ⟨state,rfl,le_trans (min_le_left _ _) (last fun other offsets there => ?_)⟩
        cases entry.symm.trans there
        simp [position]
      | some offsets =>
        rw [ensures_bind,ensures_mapError]
        refine save_ensures trivial ?_ fun met => by cases met
        refine ensures_mono (ih _ _ (fun id above => logged id (Nat.lt_of_succ_lt above)) rfl rfl) ?_
        rintro result _ final ⟨restored,same,reach⟩
        refine ⟨restored,same,?_⟩
        change min world.history.length (world.disk.committed + 1 + bound) ≤ _ at reach
        omega

/-- What holds of every journal reached from another: what the sink has was read from the ranges, and
neither the ranges nor the resume record go back. -/
structure Traced (laws : Replayable env.source env.build) (config : QueryConfig) (base journal : Journal σ) :
    Prop where
  lawful : Lawful laws journal
  read : ∀ item ∈ journal.held, ∃ range, journal.ranges[item.1 - 1]? = some range ∧
    Prepares env config (laws.records range) item.2
  recorded : base.recorded ≤ journal.recorded
  ranges : base.ranges <+: journal.ranges

variable {laws : Replayable env.source env.build}

lemma Traced.step {after} (traced : Traced laws config base journal) (step : Step env config journal phase after)
    (sound : Sound journal) : Traced laws config base after := by
  have ⟨lawful,read,recorded,ranges⟩ := traced
  refine ⟨lawful.step step sound,?_,?_,?_⟩
  · cases step with
    | record up last input answer some =>
      intro item mem
      obtain ⟨range,there,prepares⟩ := read item mem
      exact ⟨range,by rw [getElem?_append_left (List.getElem?_eq_some_iff.mp there).1,there],prepares⟩
    | write up some prepares acknowledged =>
      intro item mem
      rcases mem_land mem with old | rfl
      · exact read item old
      · obtain ⟨_,range,there,rfl⟩ := lawful.up up
        exact ⟨range,there,prepares⟩
    | _ => exact read
  · cases step with
    | recover => exact Nat.le_succ_of_le recorded
    | save up acknowledged => exact le_trans recorded (sound.up _ _ up).1
    | _ => exact recorded
  · cases step with
    | record => exact ranges.trans (prefix_append _ _)
    | _ => exact ranges

lemma traced_kept (reads : env.mayFail .getOffsets = false) (prunes : PrunesBelow sys action)
    (presents : Presents config sys journal) (traced : Traced laws config base journal) :
    ∃ after, Presents config (sys.step env config action) after ∧ Traced laws config base after := by
  obtain ⟨carried,agrees⟩ := exists_agrees config sys
  obtain ⟨last,_,presents,_,_,traced⟩ := walk_kept reads prunes presents agrees traced
    fun _ _ _ _ step _ sound traced => Traced.step traced step sound
  exact ⟨_,presents.1,{traced with lawful := traced.lawful.rest}⟩

lemma Presents.recoverable (presents : Presents config sys journal) (traced : Traced laws config base journal) :
    Recoverable env laws config sys.world := by
  have ⟨shows_,sound,_,_⟩ := presents
  have length : sys.world.history.length = journal.positions.length := by
    rw [shows_.history,length_take,Nat.min_eq_left sound.planned]
  have planned := sound.planned
  have commits : ∀ id, sys.world.disk.committed < id → id ≤ sys.world.history.length →
      ∃ commit offsets, sys.world.disk.commits id = some commit ∧
        commit.resumePosition = some offsets := by
    intro id above inside
    rw [shows_.committed] at above
    have there : journal.positions[id - 1]? = some _ := getElem?_eq_getElem (by omega)
    rw [(traced.lawful.positions _ _ there).1,← shows_.commits id above,Option.map_eq_some_iff] at there
    obtain ⟨commit,found,resumes⟩ := there
    exact ⟨commit,_,found,resumes⟩
  refine ⟨fun id above inside => ⟨?_,?_⟩,fun item mem above => ?_,?_⟩
  · rw [shows_.planned id (shows_.committed ▸ above),getElem?_eq_getElem (by omega)]
    rfl
  · obtain ⟨commit,_,found,_⟩ := commits id above inside
    rw [found]
    rfl
  · obtain ⟨range,there,prepares⟩ := traced.read item (shows_.held ▸ mem)
    exact ⟨range,(shows_.planned _ (shows_.committed ▸ above)).trans there,prepares⟩
  · unfold recoverFromLog
    rw [ensures_bind]
    refine loadOrDefault_ensures trivial ?_ fun met => by cases met
    exact recoverFrom_reaches _ _ commits rfl

/-- A fault is possible everywhere but at the reads of the resume record. -/
def savesMayFail : Request → Bool
  | .getOffsets => false
  | _ => true

def refused : Choice (Option Error) where
  fault := some ⟨.io "503",false⟩
  input := none

/-- If batches prune below the resume record, whatever saves fail and wherever the process dies, the
logs hold what a recovery needs, and no batch past the record is planned with a second range. -/
theorem logs_recoverable (laws : Replayable env.source env.build) (reads : env.mayFail .getOffsets = false)
    (source : σ) (before after : List (Action χ))
    (met : Sys.Meets env config PrunesBelow (initially source) (before ++ after)) :
    Recoverable env laws config ((initially source).run env config (before ++ after)).world ∧
      ∀ id range, ((initially source).run env config before).world.disk.planned id = some range →
        ((initially source).run env config (before ++ after)).world.disk.committed < id →
        ((initially source).run env config (before ++ after)).world.disk.planned id = some range := by
  obtain ⟨first,rest⟩ := Sys.meets_append.mp met
  obtain ⟨base,earlier,traced⟩ := presents_run
    (fun sys action journal below presents traced => traced_kept reads below presents traced) first
    (presents_initially source) ⟨lawful_initially source,nofun,le_rfl,prefix_rfl⟩
  obtain ⟨journal,presents,later⟩ := presents_run
    (fun sys action journal below presents traced => traced_kept reads below presents traced) rest
    earlier ⟨traced.lawful,traced.read,le_rfl,prefix_rfl⟩
  have whole : (initially source).run env config (before ++ after) =
      ((initially source).run env config before).run env config after := foldl_append
  rw [whole]
  refine ⟨Presents.recoverable presents later,fun id range planned above => ?_⟩
  have past := presents.shows_.committed ▸ above
  have mine := earlier.shows_.planned id (lt_of_le_of_lt later.recorded past)
  rw [mine] at planned
  obtain ⟨appended,same⟩ := later.ranges
  rw [presents.shows_.planned id past,← same,getElem?_append_left (List.getElem?_eq_some_iff.mp planned).1,planned]

def rates : Environment MemoryRateSource (Option Error) := RateReplay.environment ⟨1,5⟩ savesMayFail

def onceUnsaved : List (Action (Option Error)) :=
  [.start ⟨"query","run"⟩ (RateReplay.quiet 7),.batch (RateReplay.quiet 10),.batch (RateReplay.quiet 10 ++ [refused]),.crash]

theorem onceUnsaved_recoverable :
    Recoverable rates (RateReplay.replayable ⟨1,5⟩) RateReplay.passThrough
      ((initially {}).run rates RateReplay.passThrough onceUnsaved).world ∧
    ∀ id range, ((initially {}).run rates RateReplay.passThrough (onceUnsaved.take 3)).world.disk.planned id =
        some range → ((initially {}).run rates RateReplay.passThrough onceUnsaved).world.disk.committed < id →
      ((initially {}).run rates RateReplay.passThrough onceUnsaved).world.disk.planned id = some range :=
  have met : Sys.Meets rates RateReplay.passThrough PrunesBelow (initially {})
      (onceUnsaved.take 3 ++ onceUnsaved.drop 3) := by
    decide +kernel
  logs_recoverable (RateReplay.replayable ⟨1,5⟩) rfl _ (onceUnsaved.take 3) (onceUnsaved.drop 3) met

/-- Two batches that reach the sink and the commit log while the resume record cannot be
saved, and a crash. -/
def unsaved : List (Action (Option Error)) :=
  [.start ⟨"query","run"⟩ (RateReplay.quiet 7),.batch (RateReplay.quiet 8 ++ [refused]),
   .batch (RateReplay.quiet 10 ++ [refused]),.crash]

theorem unsaved_not_recoverable :
    ¬ Recoverable rates (RateReplay.replayable ⟨1,5⟩) RateReplay.passThrough
      ((initially {}).run rates RateReplay.passThrough unsaved).world := by
  intro recoverable
  have first := (recoverable.retained 1 (by decide +kernel) (by decide +kernel)).1
  have lost : (((initially {}).run rates RateReplay.passThrough unsaved).world.disk.planned 1).isSome = false := by
    decide +kernel
  rw [lost] at first
  cases first

/-- Past the resume record the commit log and the offset log run without a gap, the offset log at
most one batch ahead; the sink has only planned batches. -/
structure Consecutive (sys : Sys σ) (commits plans : Nat) : Prop where
  ahead : sys.world.disk.committed ≤ commits ∧ commits ≤ plans ∧ plans ≤ commits + 1
  committed : ∀ id, sys.world.disk.committed < id → ((sys.world.disk.commits id).isSome ↔ id ≤ commits)
  planned : ∀ id, sys.world.disk.committed < id → ((sys.world.disk.planned id).isSome ↔ id ≤ plans)
  held : ∀ item ∈ sys.world.sink.held, 0 < item.1 ∧ item.1 ≤ plans
  query : ∀ rt, sys.query = some rt → sys.world.disk.committed ≤ rt.batchId ∧ rt.batchId ≤ commits

lemma Presents.consecutive (presents : Presents config sys journal) :
    Consecutive sys journal.positions.length journal.ranges.length := by
  have ⟨shows_,sound,process,_⟩ := presents
  refine ⟨⟨shows_.committed ▸ sound.recorded,sound.planned,sound.oneAhead⟩,fun id above => ?_,fun id above => ?_,
    fun item mem => sound.held item (shows_.held ▸ mem),fun rt up => ?_⟩
  · rw [← Option.isSome_map,shows_.commits id (shows_.committed ▸ above),isSome_getElem?]
    omega
  · rw [shows_.planned id (shows_.committed ▸ above),isSome_getElem?]
    omega
  · rw [up] at process
    obtain ⟨low,high,_⟩ := sound.up _ _ process
    exact ⟨shows_.committed ▸ low,high⟩

/-- For any source, whatever else fails and wherever the process dies. -/
theorem logs_consecutive (reads : env.mayFail .getOffsets = false) (source : σ) (actions : List (Action χ))
    (met : Sys.Meets env config PrunesBelow (initially source) actions) :
    ∃ commits plans, Consecutive ((initially source).run env config actions) commits plans := by
  obtain ⟨journal,presents,_⟩ := presents_run (fun sys action journal below presents (_ : True) => by
    obtain ⟨carried,agrees⟩ := exists_agrees config sys
    obtain ⟨last,_,presented,_⟩ := step_walked reads below presents agrees
    exact ⟨_,presented.1,trivial⟩) met (presents_initially source) trivial
  exact ⟨_,_,Presents.consecutive presents⟩

theorem onceUnsaved_consecutive :
    ∃ commits plans, Consecutive ((initially {}).run rates RateReplay.passThrough onceUnsaved) commits plans :=
  logs_consecutive rfl {} onceUnsaved (by decide +kernel)

end Oxidant.LogPruning
