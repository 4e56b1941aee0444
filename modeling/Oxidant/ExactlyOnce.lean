import Oxidant.JournalRefinement
import Oxidant.FileReplay

/-! Exactly-once delivery: what a sink holds after any run of a query over a replayable source,
with errors, crashes and restarts anywhere, if only the resume record can be read and saved. -/
namespace Oxidant.ExactlyOnce
open Lib Streaming Semantics StreamingQueryManager BatchProtocol JournalRefinement Journal List

variable {env : Environment σ χ}

/-- The sink has the first ranges of the journal, each under its number: the committed and the one
about to be. -/
def Written (laws : Replayable env.source env.build) (config : QueryConfig) (journal : Journal σ) : Prop :=
  ∃ written, journal.positions.length ≤ written ∧ written ≤ journal.ranges.length ∧
    laws.Holds (fun range batches => batches = handed env config (laws.records range)) 1
      (journal.ranges.take written) journal.held ∧
    ∀ done, journal.process = .up done .ready → done + 1 ≤ written

variable {laws : Replayable env.source env.build} {after : Journal σ}

lemma Written.skipped (written : Written laws config journal) (sound : Sound journal)
    (lawful : Lawful laws journal) (up : journal.process = .up done (.polled batches))
    (none : totalRows batches = 0) :
    Written laws config {journal with process := .up done .ready} := by
  obtain ⟨count,low,high,holds,_⟩ := written
  obtain ⟨_,range,there,rfl⟩ := lawful.up up
  have inside := (List.getElem?_eq_some_iff.mp there).1
  have committed := (sound.up _ _ up).2.1
  rcases lt_or_ge done count with below | beyond
  · exact ⟨count,low,high,holds,fun _ here => by cases here; exact below⟩
  · cases le_antisymm beyond (le_trans committed low)
    refine ⟨done + 1,Nat.le_succ_of_le low,inside,?_,fun _ here => by cases here; exact le_rfl⟩
    rw [take_add_one,there]
    exact holds.snoc_skip none

lemma Written.wrote (written : Written laws config journal) (sound : Sound journal) (lawful : Lawful laws journal)
    (up : journal.process = .up done (.polled batches)) (some : totalRows batches ≠ 0) (stage) :
    Written laws config {journal with
      held := land journal.held (done + 1) (handed env config batches)
      process := .up done stage} := by
  obtain ⟨count,low,high,holds,_⟩ := written
  obtain ⟨_,range,there,rfl⟩ := lawful.up up
  have inside := (List.getElem?_eq_some_iff.mp there).1
  have committed := (sound.up _ _ up).2.1
  unfold land Sink.writeBatch
  rcases lt_or_ge done count with below | beyond
  · have found : (journal.ranges.take count)[done]? = Option.some range := by rwa [getElem?_take_of_lt below]
    obtain ⟨item,mem,same⟩ := holds.covers done found some
    have highest := Sink.le_highest {held := journal.held} mem
    rw [if_pos (by omega)]
    exact ⟨count,low,high,holds,fun _ here => by cases here; exact below⟩
  · cases le_antisymm beyond (le_trans committed low)
    have lowest := Sink.highest_le {held := journal.held} done fun item mem => by
      have := (holds.ids item mem).2
      simp only [length_take] at this
      omega
    rw [if_neg (by omega)]
    refine ⟨done + 1,Nat.le_succ_of_le low,inside,?_,fun _ here => by cases here; exact le_rfl⟩
    have added := holds.snoc_take some rfl
    rw [length_take,Nat.min_eq_left high,Nat.add_comm] at added
    rwa [take_add_one,there]

lemma Written.step (plain : config.dedupColumns = []) (step : Step env config journal phase after)
    (sound : Sound journal) (lawful : Lawful laws journal) (written : Written laws config journal) :
    Written laws config after := by
  have ⟨count,low,high,holds,ready⟩ := written
  cases step with
  | record up last =>
    refine ⟨count,low,?_,?_,ready⟩
    · rw [length_append]
      omega
    · rwa [take_append_of_le_length high]
  | plan => exact ⟨count,low,high,holds,ready⟩
  | miss => exact ⟨count,low,high,holds,ready⟩
  | skip up none => exact written.skipped sound lawful up none
  | @write done batches rows up some prepares acknowledged =>
    obtain ⟨operators,final,fit,applied⟩ := prepares
    have same := fit.apply_eq (by rw [plain]; rfl) (handed env config batches)
    rw [applied] at same
    cases same
    cases acknowledged <;> exact written.wrote sound lawful up some _
  | commit up acknowledged =>
    have length := put_length (sound.up _ _ up).2.1 (env.source.committedOffsets journal.source)
    have done := ready _ up
    refine ⟨count,by dsimp only; omega,high,holds,fun _ here => ?_⟩
    cases acknowledged <;> cases here
  | save _ acknowledged => exact ⟨count,low,high,holds,fun _ here => by cases acknowledged <;> cases here⟩
  | _ => exact ⟨count,low,high,holds,nofun⟩

/-- Where no save of the resume record can fail, only a batch that was just committed is past it. -/
def Level (journal : Journal σ) : Prop :=
  ∀ done stage, journal.process = .up done stage → (∃ offsets, stage = .committed offsets) ∨ journal.recorded = done

lemma Level.step (saves : ∀ state, env.mayFail (.putOffsets state) = false)
    (step : Step env config journal phase after)
    (carries : Carries env config journal.recorded after.recorded journal.process after.process carried carried')
    (level : Level journal) : Level after := by
  intro place stage here
  have stays {done : Nat} {before : Stage} (up : journal.process = .up done before)
      (other : ∀ offsets, before ≠ .committed offsets) : journal.recorded = done :=
    (level _ _ up).resolve_left fun ⟨offsets,same⟩ => other offsets same
  cases step with
  | abandon up =>
    cases here
    refine .inr (stays up fun offsets same => ?_)
    subst same
    rw [up] at carries
    obtain ⟨⟨state,fails⟩,_⟩ := carries
    rw [saves] at fails
    cases fails
  | start => cases here; exact .inr rfl
  | plan => exact level place stage here
  | record => exact level place stage here
  | miss => exact level place stage here
  | poll up => cases here; exact .inr (stays up nofun)
  | skip up => cases here; exact .inr (stays up nofun)
  | write up => cases here; exact .inr (stays up nofun)
  | commit up acknowledged =>
    cases acknowledged with
    | true => cases here; exact .inl ⟨_,rfl⟩
    | false => cases here; exact .inr (stays up nofun)
  | save => cases here; exact .inr rfl
  | durable up => cases here; exact .inr (stays up nofun)
  | _ => cases here

lemma Level.rest (level : Level journal) (settled : Settled journal) : Level journal.rest := by
  intro done stage here
  refine .inr ?_
  unfold Journal.rest at here
  cases process : journal.process <;> rw [process] at here <;> cases here
  rcases level _ _ process with ⟨_,rfl⟩ | same
  · exact absurd (settled _ _ process) (by simp)
  · exact same

lemma Level.prunes {action : Action χ} (level : Level journal) (presents : Presents config sys journal) :
    LogPruning.PrunesBelow sys action := by
  unfold LogPruning.PrunesBelow
  split
  · have level := (level _ _ presents.process).resolve_left (by simp)
    exact .inl (le_of_eq (level.symm.trans presents.shows_.committed.symm))
  · trivial

structure Exact (laws : Replayable env.source env.build) (config : QueryConfig) (journal : Journal σ) :
    Prop where
  lawful : Lawful laws journal
  written : Written laws config journal
  level : Level journal

lemma Exact.step (dedup : config.dedupColumns = []) (saves : ∀ state, env.mayFail (.putOffsets state) = false)
    (step : Step env config journal phase after)
    (carries : Carries env config journal.recorded after.recorded journal.process after.process carried carried')
    (sound : Sound journal) (exact_ : Exact laws config journal) : Exact laws config after :=
  ⟨exact_.lawful.step step sound,exact_.written.step dedup step sound exact_.lawful,
    exact_.level.step saves step carries⟩

lemma Exact.rest (exact_ : Exact laws config journal) (settled : Settled journal) :
    Exact laws config journal.rest := by
  obtain ⟨count,low,high,holds,_⟩ := exact_.written
  refine ⟨exact_.lawful.rest,⟨count,low,high,holds,fun done here => ?_⟩,exact_.level.rest settled⟩
  unfold Journal.rest at here
  cases process : journal.process <;> rw [process] at here <;> cases here

lemma Exact.kept (dedup : config.dedupColumns = []) (reads : env.mayFail .getOffsets = false)
    (saves : ∀ state, env.mayFail (.putOffsets state) = false)
    (presents : Presents config sys journal) (exact_ : Exact laws config journal) :
    ∃ after, Presents config (sys.step env config action) after ∧ Exact laws config after := by
  obtain ⟨carried,agrees⟩ := exists_agrees config sys
  obtain ⟨last,_,⟨presents,settled⟩,_,_,kept⟩ := walk_kept reads (exact_.level.prunes presents) presents agrees exact_
    fun _ _ _ _ step carries sound exact_ => Exact.step dedup saves step carries sound exact_
  exact ⟨_,presents,kept.rest settled⟩

/-- After any run the sink holds the batches of ranges that tile the source from its initial
position, each once, in order and under its id. The run may fail any request but those of the resume
record, and die at any of them. -/
theorem sink_holds_tiling_ranges_once (laws : Replayable env.source env.build)
    (dedup : config.dedupColumns = []) (_expectations : config.expectations = [])
    (reads : env.mayFail .getOffsets = false)
    (saves : ∀ state, env.mayFail (.putOffsets state) = false)
    (source : σ) (actions : List (Action χ)) :
    ∃ ranges, laws.Tiles laws.initial ranges ∧ ((initially source).run env config actions).world.sink.held =
        laws.entries (handed env config) 1 ranges := by
  obtain ⟨journal,presents,lawful,⟨written,_,_,holds,_⟩,_⟩ := presents_run
    (fun sys action journal _ presents exact_ => Exact.kept dedup reads saves presents exact_)
    (Sys.meets_of_all (fun _ _ => trivial) _ _) (presents_initially source)
    ⟨lawful_initially source,⟨0,le_rfl,le_rfl,.nil 1,nofun⟩,nofun⟩
  refine ⟨journal.ranges.take written,laws.tiles_take _ _ lawful.tiles,?_⟩
  rw [presents.shows_.held]
  exact holds.eq_entries

def fileEnvironment (files : FileConfig) : Environment FileSource FileInput where
  source := FileSource.source files
  build := fun _ => {}
  mayFail
    | .getOffsets | .putOffsets _ => false
    | _ => true

def pathFiles : FileConfig where
  path := "in"
  format := "json"
  read := fun path => .ok [⟨[⟨"path",.utf8⟩],[[some (.text path)]]⟩]

def plainConfig : QueryConfig where
  location := "checkpoint"
  formatter := fun _ => .ok fun _ => ""

def fileLaws (files : FileConfig) : Replayable (fileEnvironment files).source (fileEnvironment files).build :=
  FileReplay.replayable files

/-- A first batch that dies once it is planned, and a second run that meets another file. -/
def interrupted : List (Action FileInput) :=
  [.start ⟨"query","first"⟩ (List.replicate 8 {input := {}}),
   .batch (List.replicate 3 {input := {listing := ["a.json"]}}),
   .start ⟨"query","second"⟩ (List.replicate 8 {input := {}}),
   .batch (List.replicate 12 {input := {listing := ["a.json","b.json"]}}),
   .batch (List.replicate 12 {input := {listing := ["a.json","b.json"]}})]

theorem interrupted_files_once :
    ∃ ranges, (fileLaws pathFiles).Tiles (fileLaws pathFiles).initial ranges ∧
      ((initially ⟨∅⟩).run (fileEnvironment pathFiles) plainConfig interrupted).world.sink.held =
        (fileLaws pathFiles).entries (handed (fileEnvironment pathFiles) plainConfig) 1 ranges :=
  sink_holds_tiling_ranges_once (fileLaws pathFiles) rfl rfl rfl (fun _ => rfl) ⟨∅⟩ interrupted

structure Ingesting (files : FileConfig) (journal : Journal FileSource) : Prop where
  lawful : Lawful (fileLaws files) journal
  named : ∀ range ∈ journal.ranges, range.source = "file"
  level : Level journal

lemma Ingesting.step {after} (step : Step (fileEnvironment files) config journal phase after)
    (carries : Carries (fileEnvironment files) config journal.recorded after.recorded journal.process after.process
        carried carried')
    (sound : Sound journal) (ingesting : Ingesting files journal) : Ingesting files after := by
  refine ⟨ingesting.lawful.step step sound,?_,ingesting.level.step (fun _ => rfl) step carries⟩
  cases step with
  | record up last input answer =>
    cases answer
    exact forall_mem_append.mpr ⟨ingesting.named,by simp⟩
  | _ => exact ingesting.named

lemma tiles_disjoint {ranges} («from» : SourceOffsets) (tiles : (fileLaws files).Tiles «from» ranges)
    (named : ∀ range ∈ ranges, range.source = "file") :
    ranges.Pairwise (fun one other => one.items.Disjoint other.items) ∧
      ∀ range ∈ ranges, ∀ path ∈ range.items, «from».entries[path]? = none := by
  induction ranges generalizing «from» with
  | nil => simp
  | cons range rest ih =>
    obtain ⟨file,named⟩ := forall_mem_cons.mp named
    obtain ⟨disjoint,unread⟩ := ih _ tiles.2 named
    have apart other (mem : other ∈ rest) path (inside : path ∈ other.items) :
        path ∉ range.items ∧ «from».entries[path]? = none := by
      have unseen := unread other mem path inside
      change (FileReplay.advance «from» range).entries[path]? = none at unseen
      rw [FileReplay.advance,if_pos file,FileReplay.foldl_insert_entry] at unseen
      split at unseen
      · cases unseen
      · exact ⟨‹_›,unseen⟩
    exact ⟨pairwise_cons.mpr ⟨fun other mem path here there => (apart other mem path there).1 here,disjoint⟩,
      forall_mem_cons.mpr ⟨tiles.1,fun other mem path inside => (apart other mem path inside).2⟩⟩

/-- No file is consumed by two committed batches, whatever the directory lists at each call, whatever
request but those for the resume record fails and wherever the process dies. -/
theorem files_consumed_once (files : FileConfig) (source : FileSource) (actions : List (Action FileInput)) :
    ((initially source).run (fileEnvironment files) config actions).world.history.Pairwise
      fun one other => one.items.Disjoint other.items := by
  have all : Sys.Meets (fileEnvironment files) config (fun _ _ => True) (initially source) actions :=
    Sys.meets_of_all (fun _ _ => trivial) _ _
  obtain ⟨journal,presents,lawful,named,_⟩ := presents_run
    (fun sys action journal _ presents (held : Ingesting files journal) => by
      obtain ⟨carried,agrees⟩ := exists_agrees config sys
      obtain ⟨last,_,⟨presents,settled⟩,_,_,kept⟩ := walk_kept rfl (held.level.prunes presents) presents agrees held
        fun _ _ _ _ step carries sound held => Ingesting.step step carries sound held
      exact ⟨_,presents,kept.lawful.rest,kept.named,kept.level.rest settled⟩)
    all (presents_initially source) ⟨lawful_initially source,by simp,nofun⟩
  rw [presents.shows_.history]
  exact (tiles_disjoint _ lawful.tiles named).1.sublist (take_sublist _ _)

end Oxidant.ExactlyOnce
