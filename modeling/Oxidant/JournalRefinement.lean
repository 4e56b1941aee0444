import Oxidant.BatchProtocol

/-! The scheduler refines the journal: what holds initially and is kept by every step of a journal
holds in every state that a query's runs reach. -/
namespace Oxidant.JournalRefinement
open List hiding after range
open Lib Streaming CheckpointStore StreamingQueryManager BatchProtocol Journal Act

variable {env : Environment σ χ} {config : QueryConfig}

/-- The journal that the checkpoint, the sink and the source show. The logs may be pruned below the
resume record. -/
structure Shows (world : World σ) (journal : Journal σ) : Prop where
  source : world.source = journal.source
  held : world.sink.held = journal.held
  history : world.history = journal.ranges.take journal.positions.length
  committed : world.disk.committed = journal.recorded
  resume : (world.disk.offsets.getD {}).sourceOffsets = journal.resume
  planned : ∀ id, journal.recorded < id → world.disk.planned id = journal.ranges[id - 1]?
  commits : ∀ id, journal.recorded < id →
    (world.disk.commits id).map (·.resumePosition) = journal.positions[id - 1]?

def Stored (config : QueryConfig) (world : World σ) (carried : Carried) : Prop :=
  (StreamingQueryManager.resume config (world.disk.offsets.getD {})).operators = carried.saved

structure Invariant (env : Environment σ χ) (config : QueryConfig) (phase : Phase) where
  holds : Journal σ × Carried → Prop
  kept : ∀ before after, Moves env config phase before after → holds before → holds after

section Phases
variable {phase : Phase} (inv : Invariant env config phase)

def At (process : Process) (carried : Carried) (world : World σ) : Prop :=
  ∃ journal : Journal σ, journal.process = process ∧ Shows world journal ∧ Sound journal ∧
    Stored config world carried ∧ inv.holds (journal,carried)

def Down (world : World σ) : Prop := ∃ process carried, At inv process carried world

variable {inv} {process : Process}

lemma At.down (here : At inv process carried world) : Down inv world := ⟨_,_,here⟩

lemma At.step {next} (sound : Sound journal) (holds : inv.holds (journal,carried))
    (step : Step env config journal phase after) (before : journal.process = process)
    (then_ : after.process = next)
    (carries : Carries env config journal.recorded after.recorded process next carried carried')
    (shows_ : Shows final after) (stored : Stored config final carried') :
    At inv next carried' final :=
  ⟨after,then_,shows_,sound.step step,stored,inv.kept _ _ ⟨step,by rwa [before,then_]⟩ holds⟩

lemma At.crash (here : At inv process carried world) : At inv .down carried world := by
  obtain ⟨journal,up,shows_,sound,stored,holds⟩ := here
  exact At.step sound holds (.crash phase) up rfl ((carries_down _ _ _).mpr rfl) {shows_ with} stored

lemma Down.at_ (down : Down inv world) : ∃ carried, At inv .down carried world := by
  obtain ⟨process,carried,here⟩ := down
  exact ⟨carried,here.crash⟩

lemma At.forget (here : At inv process carried world) (id) (covered : id ≤ world.disk.committed) :
    At inv process carried (world.setPlanned id none) ∧ At inv process carried (world.deleteCommit id) := by
  obtain ⟨journal,up,shows_,sound,kept⟩ := here
  rw [shows_.committed] at covered
  refine ⟨⟨journal,up,{shows_ with planned := fun other above => ?_},sound,kept⟩,
    journal,up,{shows_ with commits := fun other above => ?_},sound,kept⟩
  · change (if other = id then none else world.disk.planned other) = _
    rw [if_neg (by omega)]
    exact shows_.planned other above
  · change Option.map _ (if other = id then none else world.disk.commits other) = _
    rw [if_neg (by omega)]
    exact shows_.commits other above

end Phases

section Running
variable {inv : Invariant env config .running} {rt : QueryRuntime}

lemma At.abandon (here : At inv (.up done stage) carried world) (carries : ∀ recorded,
      Carries env config recorded recorded (.up done stage) (.up done .ended) carried carried')
    (stored : Stored config world carried') : At inv (.up done .ended) carried' world := by
  obtain ⟨journal,up,shows_,sound,_,holds⟩ := here
  exact At.step sound holds (.abandon up) up rfl (carries _) {shows_ with} stored

lemma At.stored (here : At inv (.up done stage) carried world) : Stored config world carried := by
  obtain ⟨_,_,_,_,stored,_⟩ := here
  exact stored

lemma At.plan (here : At inv (.up done .idle) carried world)
    (none : world.disk.planned (done + 1) = none) (input : χ) :
    let planned : World σ := {world with source := (env.source.planBatch input world.source).2}
    At inv (.up done .idle) carried planned ∧
      ∀ range, (env.source.planBatch input world.source).1 = .ok range → range.isEmpty = false →
        At inv (.up done .idle) carried (planned.setPlanned (done + 1) (some range)) := by
  intro planned
  obtain ⟨journal,up,shows_,sound,stored,holds⟩ := here
  obtain ⟨low,high,_⟩ := sound.up _ _ up
  have last : journal.ranges.length ≤ done := by
    rw [shows_.planned _ (by omega)] at none
    exact getElem?_eq_none_iff.mp none
  have length : done = journal.ranges.length := by
    have := sound.planned
    omega
  have source : planned.source = (env.source.planBatch input journal.source).2 := by rw [← shows_.source]
  constructor
  · exact At.step sound holds (.plan up last input) up up rfl {shows_ with source} stored
  · intro range answer some_
    rw [shows_.source] at answer
    refine At.step sound holds (.record up last input answer some_) up up rfl
      {shows_ with source,history := ?_,planned := fun id above => ?_} stored
    · rw [take_append_of_le_length sound.planned]
      exact shows_.history
    change (if id = done + 1 then some range else world.disk.planned id) = _
    split
    · next same => simp [same,length]
    · rw [shows_.planned id above]
      rcases lt_or_ge (id - 1) journal.ranges.length with below | beyond
      · rw [getElem?_append_left below]
      · have above : journal.recorded < id := above
        rw [getElem?_eq_none beyond,getElem?_eq_none]
        simp only [length_append,length_singleton]
        omega

lemma obtainRange_ensures (here : At inv (.up rt.batchId .idle) carried world) :
    (obtainRange config (rt.batchId + 1)).Ensures env.reply (Down inv) (fun result after final =>
        (after.batchId = rt.batchId ∧ after.operators = rt.operators) ∧ final.disk.offsets = world.disk.offsets ∧
        At inv (.up rt.batchId .idle) carried final ∧
        ∀ range, result = .ok (some range) → final.disk.planned (rt.batchId + 1) = some range) rt world := by
  unfold obtainRange
  rw [ensures_bind,ensures_mapError]
  refine loadPlanned_ensures _ here.down ?_ fun _ _ => ⟨⟨rfl,rfl⟩,rfl,here,nofun⟩
  dsimp only [Except.mapError]
  cases found : world.disk.planned (rt.batchId + 1) with
  | some range => exact ⟨⟨rfl,rfl⟩,rfl,here,fun other same => by cases same; exact found⟩
  | none =>
    rw [ensures_bind]
    refine ensures_withRetry isRetryable (fun after final => after = rt ∧ final.disk = world.disk ∧
        At inv (.up rt.batchId .idle) carried final) ?_ _ rt world ⟨rfl,rfl,here⟩
    rintro rt final ⟨rfl,disk,here⟩
    refine planBatch_ensures here.down fun input => ?_
    obtain ⟨planned,recorded⟩ := here.plan (disk ▸ found) input
    refine ⟨?_,fun _ _ => ⟨rfl,disk,planned⟩⟩
    have offsets : final.disk.offsets = world.disk.offsets := congrArg Disk.offsets disk
    cases answer : (env.source.planBatch input final.source).1 with
    | error e => exact ⟨⟨rfl,rfl⟩,offsets,planned,nofun⟩
    | ok range =>
      dsimp only
      split
      · exact ⟨⟨rfl,rfl⟩,offsets,planned,nofun⟩
      · next present =>
        have recorded := recorded range answer (by simpa using present)
        rw [ensures_bind,ensures_mapError]
        refine savePlanned_ensures _ planned.down ?_ fun _ _ => ⟨?_,?_⟩
        · exact ⟨⟨rfl,rfl⟩,offsets,recorded,fun _ same => by cases same; exact if_pos rfl⟩
        · exact ⟨⟨rfl,rfl⟩,offsets,planned,nofun⟩
        · exact ⟨⟨rfl,rfl⟩,offsets,recorded,nofun⟩

lemma At.poll (here : At inv (.up done .idle) carried world)
    (there : world.disk.planned (done + 1) = some range) (input : χ) :
    let polled : World σ := {world with source := (env.source.pollRange input range world.source).2}
    match (env.source.pollRange input range world.source).1 with
    | .error _ => At inv (.up done .idle) carried polled
    | .ok batches => At inv (.up done (.polled batches)) carried polled := by
  intro polled
  obtain ⟨journal,up,shows_,sound,stored,holds⟩ := here
  obtain ⟨low,_,_⟩ := sound.up _ _ up
  have there : journal.ranges[done]? = some range := by
    rw [← there,shows_.planned _ (by omega)]
    rfl
  have source : polled.source = (env.source.pollRange input range journal.source).2 := by rw [← shows_.source]
  cases answer : (env.source.pollRange input range world.source).1 with
  | error e =>
    rw [shows_.source] at answer
    exact At.step sound holds (.miss up there input answer) up up rfl {shows_ with source} stored
  | ok batches =>
    rw [shows_.source] at answer
    exact At.step sound holds (.poll up there input answer) up rfl rfl {shows_ with source} stored

lemma pollRange_at (here : At inv (.up rt.batchId .idle) carried world)
    (there : world.disk.planned (rt.batchId + 1) = some range) :
    (Act.withRetry isRetryable retries (pollRange range)).Ensures env.reply (Down inv)
      (fun result after final => after = rt ∧ final.disk = world.disk ∧ match result with
        | .error _ => At inv (.up rt.batchId .idle) carried final
        | .ok batches => At inv (.up rt.batchId (.polled batches)) carried final) rt world := by
  refine ensures_withRetry isRetryable (fun after final => after = rt ∧
    final.disk = world.disk ∧ At inv (.up rt.batchId .idle) carried final) ?_ _ rt world ⟨rfl,rfl,here⟩
  rintro rt final ⟨rfl,disk,here⟩
  refine pollRange_ensures _ here.down fun input => ?_
  have polled := here.poll (disk ▸ there) input
  cases answer : (env.source.pollRange input range final.source).1 with
  | error e =>
    rw [answer] at polled
    exact ⟨⟨rfl,disk,polled⟩,fun _ _ => ⟨rfl,disk,polled⟩⟩
  | ok batches =>
    rw [answer] at polled
    exact ⟨⟨rfl,disk,polled⟩,nofun⟩

lemma At.write (here : At inv (.up done (.polled batches)) carried world) (some_ : totalRows batches ≠ 0)
    (prepares : Prepares env config batches rows) (acknowledged : Bool) :
    At inv (.up done (if acknowledged then .ready else .polled batches))
      (if acknowledged then {carried with operators := pass env config batches carried.operators} else carried)
      {world with sink := (world.sink.writeBatch rows (done + 1)).2} := by
  obtain ⟨journal,up,shows_,sound,stored,holds⟩ := here
  refine At.step sound holds (.write up some_ prepares acknowledged) up rfl (by cases acknowledged <;> rfl)
    {shows_ with held := ?_} (by cases acknowledged <;> exact stored)
  have held := shows_.held
  unfold land Sink.writeBatch Sink.highest
  rw [← held]
  split <;> rfl

lemma writeRows_ensures (here : At inv (.up rt.batchId (.polled batches)) ⟨rt.operators,saved⟩ world)
    (fit : rt.operators.Fit config) :
    (writeRows config (rt.batchId + 1) batches).Ensures env.reply (Down inv)
      (fun result after final => (after.batchId = rt.batchId ∧ after.operators.Fit config) ∧
        final.disk = world.disk ∧ match result with
        | .error _ => At inv (.up rt.batchId .ended) ⟨after.operators,saved⟩ final
        | .ok _ => At inv (.up rt.batchId .ready) ⟨after.operators,saved⟩ final) rt world := by
  unfold writeRows
  split
  · next none =>
    obtain ⟨journal,up,shows_,sound,stored,holds⟩ := here
    refine ⟨⟨rfl,fit⟩,rfl,At.step sound holds (.skip up none) up rfl ?_ {shows_ with} stored⟩
    exact congrArg (Carried.mk · saved) (if_pos none).symm
  · next some_ =>
    apply ensures_then (prepareRows_ensures config _ batches here.down)
    rintro (e | rows) after final ⟨rfl,operated,stays,prepared⟩
    · exact ⟨⟨by rw [operated],stays fit⟩,rfl,here.abandon (fun _ => rfl) here.stored⟩
    · have prepares : Prepares env config batches rows := ⟨_,_,fit,prepared rows rfl⟩
      have passes : pass env config batches rt.operators = after.operators := by
        rw [Journal.pass,if_neg some_,prepared rows rfl]
      have number : after.batchId = rt.batchId := by rw [operated]
      refine ensures_withRetry isRetryable (fun again last => again = after ∧
        last.disk = final.disk ∧ At inv (.up rt.batchId (.polled batches)) ⟨rt.operators,saved⟩ last)
        ?_ _ after final ⟨rfl,rfl,here⟩
      rintro after last ⟨rfl,disk,here⟩
      have done := here.write some_ prepares true
      have lost := here.write some_ prepares false
      have same := And.intro number (stays fit)
      refine writeBatch_ensures _ _ here.down ?_ fun e => ⟨?_,?_⟩
      · exact ⟨⟨same,disk,passes ▸ done⟩,nofun⟩
      · exact ⟨⟨same,disk,here.abandon (fun _ => rfl) here.stored⟩,fun _ _ => ⟨rfl,disk,here⟩⟩
      · exact ⟨⟨same,disk,lost.abandon (fun _ => rfl) lost.stored⟩,fun _ _ => ⟨rfl,disk,lost⟩⟩

lemma At.commit (here : At inv (.up done .ready) carried world) (rows : Nat) (acknowledged : Bool) :
    At inv
      (if acknowledged then .up (done + 1) (.committed (env.source.committedOffsets world.source))
        else .up done .ended) carried
      (world.putCommit ⟨done + 1,rows,env.source.committedOffsets world.source⟩) := by
  obtain ⟨journal,up,shows_,sound,stored,holds⟩ := here
  obtain ⟨low,high,fits⟩ := sound.up _ _ up
  rw [shows_.source]
  refine At.step sound holds (.commit up acknowledged) up rfl (by cases acknowledged <;> rfl)
    {shows_ with history := ?_,commits := fun id above => ?_} stored
  · have history := shows_.history
    have planned := sound.planned
    have length : world.history.length = journal.positions.length := by
      rw [history,length_take]
      omega
    unfold World.putCommit
    dsimp only
    rw [put_length high,shows_.planned _ (by omega),length]
    split
    · have last : journal.positions.length = done := by omega
      rw [history,last,Nat.max_eq_right (Nat.le_succ _),take_add_one]
      rfl
    · rw [history,Nat.max_eq_left (by omega)]
  rw [put_getElem? high]
  change Option.map _ (if id = done + 1 then _ else world.disk.commits id) = _
  split
  · next same => simp [same]
  · rw [if_neg (by omega)]
    exact shows_.commits id above

lemma commitBatch_ensures (here : At inv (.up rt.batchId .ready) carried world) :
    (commitBatch config (rt.batchId + 1) rows).Ensures env.reply (Down inv)
      (fun result after final => final.disk.offsets = world.disk.offsets ∧ match result with
        | .error _ => after = rt ∧ At inv (.up rt.batchId .ended) carried final
        | .ok offsets => (after.batchId = rt.batchId + 1 ∧ after.operators = rt.operators) ∧
          At inv (.up (rt.batchId + 1) (.committed offsets)) carried final) rt world := by
  unfold commitBatch
  rw [ensures_bind,ensures_request]
  refine ⟨here.down,fun _ => ?_⟩
  change Act.Ensures _ _ _ _ _ world
  rw [ensures_bind,ensures_mapError]
  refine saveCommit_ensures here.down ?_ fun _ e => ⟨?_,?_⟩
  · exact ⟨rfl,⟨rfl,rfl⟩,here.commit rows true⟩
  · exact ⟨rfl,rfl,here.abandon (fun _ => rfl) here.stored⟩
  · exact ⟨rfl,rfl,here.commit rows false⟩

lemma At.save (here : At inv (.up done (.committed offsets)) carried world) (pruned : Nat) (record)
    (acknowledged : Bool)
    (carries : ∀ recorded saved, Saves config carried saved →
        Carries env config recorded done (.up done (.committed offsets))
          (.up done (if acknowledged then .saved else .ended)) carried saved) :
    ∃ saved, At inv (.up done (if acknowledged then .saved else .ended)) ⟨carried.operators,saved⟩
        (world.setOffsets (nextCheckpoint config done offsets carried.operators pruned record)) := by
  obtain ⟨journal,up,shows_,sound,_,holds⟩ := here
  have low := (sound.up _ _ up).1
  exact ⟨_,At.step sound holds (.save up acknowledged) up rfl (carries _ _ ⟨_,_,_,_,rfl⟩) {shows_ with
    committed := rfl
    resume := rfl
    planned := fun id above => shows_.planned id (lt_of_le_of_lt low above)
    commits := fun id above => shows_.commits id (lt_of_le_of_lt low above) } rfl⟩

lemma saveCheckpoint_ensures (reads : env.mayFail .getOffsets = false)
    (here : At inv (.up (done + 1) (.committed offsets)) ⟨rt.operators,saved⟩ world)
    (prunes : done ≤ world.disk.committed ∨
      (world.disk.offsets.getD {}).prunedThrough + pruneBatch ≤ world.disk.committed) :
    (saveCheckpoint config (done + 1) offsets).Ensures env.reply (Down inv)
      (fun result after final => after = rt ∧ ∃ saved, match result with
        | .error _ => At inv (.up (done + 1) .ended) ⟨rt.operators,saved⟩ final
        | .ok _ => At inv (.up (done + 1) .saved) ⟨rt.operators,saved⟩ final) rt world := by
  unfold saveCheckpoint
  rw [ensures_bind]
  refine loadOrDefault_ensures here.down ?_ fun met => by simp [reads] at met
  dsimp only
  rw [ensures_get_bind,ensures_bind]
  refine ensures_mono (pruneLog_ensures
    (fun final => final.disk.offsets = world.disk.offsets ∧
      At inv (.up (done + 1) (.committed offsets)) ⟨rt.operators,saved⟩ final)
    (fun final kept => kept.2.down) ?_ ⟨rfl,here⟩) ?_
  · rintro final id ⟨same,here⟩ below budget
    have covered : id ≤ final.disk.committed := by
      unfold Disk.committed at prunes ⊢
      rw [same]
      omega
    obtain ⟨planned,commits⟩ := here.forget id covered
    exact ⟨⟨same,planned⟩,same,commits⟩
  · rintro _ after final ⟨rfl,⟨same,here⟩,last,rfl⟩
    dsimp only
    rw [ensures_mapError]
    refine save_ensures here.down ?_ fun met e => ⟨?_,?_⟩
    · exact ⟨rfl,here.save last _ true fun _ _ => id⟩
    · exact ⟨rfl,saved,here.abandon (fun _ => ⟨⟨_,met⟩,.inl ⟨rfl,rfl⟩⟩) here.stored⟩
    · exact ⟨rfl,here.save last _ false fun _ _ saves => ⟨⟨_,met⟩,.inr ⟨saves,rfl⟩⟩⟩

lemma At.durable (here : At inv (.up done .saved) carried world) (input : χ) :
    At inv (.up done .ended) carried {world with source := (env.source.markDurable input world.source).2} := by
  obtain ⟨journal,up,shows_,sound,stored,holds⟩ := here
  refine At.step sound holds (.durable up input) up rfl rfl {shows_ with source := ?_} stored
  rw [shows_.source]

lemma runBatchInner_ensures (reads : env.mayFail .getOffsets = false)
    (here : At inv (.up rt.batchId .idle) ⟨rt.operators,saved⟩ world) (fit : rt.operators.Fit config)
    (prunes : PruneSafe rt world) :
    (runBatchInner config).Ensures env.reply (Down inv) (fun _ after final => after.operators.Fit config ∧
        ∃ saved, At inv (.up after.batchId .ended) ⟨after.operators,saved⟩ final) rt world := by
  unfold runBatchInner
  rw [ensures_get_bind]
  apply ensures_then (obtainRange_ensures here)
  rintro result after planned ⟨⟨number,same⟩,offsets,here,there⟩
  rw [← same] at fit here
  rcases result with e | _ | range
  · exact ⟨fit,saved,number ▸ here.abandon (fun _ => rfl) here.stored⟩
  · exact ⟨fit,saved,number ▸ here.abandon (fun _ => rfl) here.stored⟩
  have there := there range rfl
  rw [← number] at there here ⊢
  apply ensures_then (pollRange_at here there)
  rintro (e | batches) after polled ⟨rfl,disk,here⟩
  · exact ⟨fit,saved,here.abandon (fun _ => rfl) here.stored⟩
  apply ensures_then (writeRows_ensures here fit)
  rintro (e | rows) wrote written ⟨⟨number',fit⟩,disk',here⟩
  · exact ⟨fit,saved,number' ▸ here⟩
  rw [← number'] at here ⊢
  apply ensures_then (commitBatch_ensures here)
  rintro (e | position) committed final ⟨stored,outcome⟩
  · obtain ⟨rfl,here⟩ := outcome
    exact ⟨fit,saved,here⟩
  obtain ⟨⟨number'',same⟩,here⟩ := outcome
  rw [← same] at fit here
  have stored : final.disk.offsets = world.disk.offsets := by rw [stored,disk',disk,offsets]
  have prunes : wrote.batchId ≤ final.disk.committed ∨
      (final.disk.offsets.getD {}).prunedThrough + pruneBatch ≤ final.disk.committed := by
    unfold Disk.committed
    rwa [stored,number',number]
  apply ensures_then (saveCheckpoint_ensures reads here prunes)
  rintro (e | _) ended last ⟨rfl,saved,here⟩
  · exact ⟨fit,saved,number'' ▸ here⟩
  rw [ensures_bind]
  refine markDurable_ensures here.down fun input => ?_
  have here := here.durable input
  rw [← number''] at here
  cases (env.source.markDurable input last.source).1 <;> exact ⟨fit,saved,here⟩

lemma runBatch_ensures (reads : env.mayFail .getOffsets = false)
    (here : At inv (.up rt.batchId .idle) ⟨rt.operators,saved⟩ world) (fit : rt.operators.Fit config)
    (prunes : PruneSafe rt world) :
    (runBatch config).Ensures env.reply (Down inv) (fun _ after final => after.operators.Fit config ∧
        ∃ saved, At inv (.up after.batchId .ended) ⟨after.operators,saved⟩ final) rt world := by
  unfold runBatch
  rw [ensures_get_bind]
  split
  · exact runBatchInner_ensures reads here fit prunes
  · exact ⟨fit,saved,here.abandon (fun _ => rfl) here.stored⟩

end Running

section Starting
variable {inv : Invariant env config .starting}

def Ends (world : World σ) : Prop :=
  ∀ commit offsets, world.disk.commits (world.disk.committed + 1) = some commit → commit.resumePosition ≠ some offsets

lemma recoverFrom_ensures (walked : Nat) (total : walked + bound = maxRecovered) (state : CheckpointState) (world)
    (here : At inv (.starting walked) carried world) (stored : world.disk.offsets.getD {} = state) :
    (recoverFrom config bound state).Ensures env.reply (Down inv) (fun result _ final => match result with
        | .error _ => Down inv final
        | .ok restored => final.disk.offsets.getD {} = restored ∧ ∃ walked,
          At inv (.starting walked) carried final ∧ (walked = maxRecovered ∨ Ends final)) () world := by
  induction bound generalizing walked state world with
  | zero => exact ⟨stored,walked,here,.inl total⟩
  | succ bound ih =>
    unfold recoverFrom
    rw [ensures_bind,ensures_mapError]
    refine loadCommit_ensures _ here.down ?_ fun _ _ => here.down
    have number : state.committedBatchId = world.disk.committed := by
      unfold Disk.committed
      rw [stored]
    rw [number]
    dsimp only [Except.mapError]
    cases entry : world.disk.commits (world.disk.committed + 1) with
    | none =>
      refine ⟨stored,walked,here,.inr fun commit offsets there => ?_⟩
      rw [entry] at there
      cases there
    | some commit =>
      dsimp only
      cases position : commit.resumePosition with
      | none =>
        refine ⟨stored,walked,here,.inr fun other offsets there resumes => ?_⟩
        cases entry.symm.trans there
        rw [position] at resumes
        cases resumes
      | some offsets =>
        have saved : At inv (.starting (walked + 1)) carried (world.setOffsets {state with
            committedBatchId := world.disk.committed + 1
            batchId := world.disk.committed + 1
            sourceOffsets := some offsets}) := by
          obtain ⟨journal,starting,shows_,sound,record,holds⟩ := here
          subst stored
          have committed : journal.positions[journal.recorded]? = some (some offsets) := by
            have there := shows_.commits (journal.recorded + 1) (Nat.lt_succ_self _)
            rw [← shows_.committed,entry,Option.map_some,position,shows_.committed] at there
            exact there.symm
          exact At.step sound holds (.recover starting committed) starting rfl rfl {shows_ with
            committed := congrArg (· + 1) shows_.committed
            resume := rfl
            planned := fun id above => shows_.planned id (Nat.lt_of_succ_lt above)
            commits := fun id above => shows_.commits id (Nat.lt_of_succ_lt above) } record
        rw [ensures_bind,ensures_mapError]
        refine save_ensures here.down ?_ fun _ _ => ⟨here.down,saved.down⟩
        exact ih _ (by omega) _ _ saved rfl

lemma At.start (here : At inv (.starting walked) carried world) (walk : walked = maxRecovered ∨ Ends world) :
    let restored := StreamingQueryManager.resume config (world.disk.offsets.getD {})
    At inv (.up restored.batchId .idle) ⟨restored.operators,carried.saved⟩ {world with
      source := (world.disk.offsets.getD {}).sourceOffsets.elim world.source
        (env.source.restoreOffsets · world.source)} := by
  intro restored
  obtain ⟨journal,starting,shows_,sound,stored,holds⟩ := here
  have walk : walked = maxRecovered ∨ ∀ offsets, journal.positions[journal.recorded]? ≠ some (some offsets) := by
    refine walk.imp id fun ends offsets there => ?_
    have logged := shows_.commits (journal.recorded + 1) (Nat.lt_succ_self _)
    rw [Nat.add_sub_cancel,there,Option.map_eq_some_iff,← shows_.committed] at logged
    obtain ⟨commit,found,resumes⟩ := logged
    exact ends commit offsets found resumes
  have operators : restored.operators = carried.saved := stored
  have number : restored.batchId = journal.recorded := shows_.committed
  rw [operators,number,shows_.resume,shows_.source]
  exact At.step sound holds (.start starting walk) starting rfl rfl {shows_ with source := rfl} stored

lemma At.withAppId {process : Process} (here : At inv process carried world) (appId) :
    At inv process carried {world with sink := {world.sink with appId}} := by
  obtain ⟨journal,up,shows_,sound,kept⟩ := here
  exact ⟨journal,up,{shows_ with},sound,kept⟩

lemma At.stamp {process : Process} (here : At inv process carried world) (id) :
    At inv process carried (world.setOffsets (stampRun id (world.disk.offsets.getD {}))) := by
  obtain ⟨journal,up,shows_,sound,kept⟩ := here
  exact ⟨journal,up,{shows_ with},sound,kept⟩

lemma startWithConfig_ensures (reads : env.mayFail .getOffsets = false) (id : StreamingQueryId)
    (here : At inv .down carried world) :
    (startWithConfig config id).Ensures env.reply (Down inv) (fun result _ final => match result with
        | .ok rt => rt.operators.Fit config ∧
          ∃ saved, At inv (.up rt.batchId .idle) ⟨rt.operators,saved⟩ final
        | .error _ => Down inv final) () world := by
  unfold startWithConfig
  rw [ensures_bind]
  refine probe_ensures here.down fun result => ?_
  rcases result with e | _
  · exact here.down
  have built : At inv (.starting 0) carried {world with source := env.build world.source} := by
    obtain ⟨journal,down,shows_,sound,stored,holds⟩ := here
    rw [shows_.source]
    exact At.step sound holds (.build down) down rfl rfl {shows_ with source := rfl} stored
  rw [ensures_bind]
  refine buildSource_ensures here.down ?_ fun e => ⟨here.down,built.down⟩
  rw [ensures_bind]
  unfold recoverFromLog
  rw [ensures_bind]
  refine loadOrDefault_ensures built.down ?_ fun met => by simp [reads] at met
  apply ensures_mono (recoverFrom_ensures 0 (Nat.zero_add _) _ _ built rfl)
  rintro (e | restored) _ final outcome
  · exact outcome
  obtain ⟨same,walked,here,walk⟩ := outcome
  have started := here.start walk
  rw [same] at started
  dsimp only
  rw [ensures_bind]
  apply restoreOffsets_ensures here.down
  rw [ensures_bind]
  have named := started.withAppId (if restored.queryId.isEmpty then id.id else restored.queryId)
  refine buildSink_ensures started.down ?_ fun e => ⟨started.down,named.down⟩
  have stamped := named.stamp id
  rw [ensures_bind,ensures_mapError]
  refine initForQuery_ensures id named.down reads ⟨fun empty => ?_,_,stamped⟩ fun e => ⟨named.down,stamped.down⟩
  unfold StreamingQueryManager.resume
  rw [if_pos empty]

end Starting

def restrict (env : Environment σ χ) (good : χ → Prop) : Environment σ {input : χ // good input} where
  source :=
    { planBatch := fun input => env.source.planBatch input.1
      pollRange := fun input => env.source.pollRange input.1
      markDurable := fun input => env.source.markDurable input.1
      committedOffsets := env.source.committedOffsets
      restoreOffsets := env.source.restoreOffsets }
  build := env.build
  plan := env.plan
  violations := env.violations
  mayFail := env.mayFail

def inputs : Action χ → List χ
  | .start _ choices | .batch choices => choices.map (·.input)
  | .stop | .crash => []

def phaseOf : Action χ → Phase
  | .start _ _ => .starting
  | _ => .running

def widen {good : χ → Prop} (choice : Choice {input : χ // good input}) : Choice χ :=
  ⟨choice.fault,choice.input.1⟩

lemma widen_reply : (fun choice => env.reply (widen choice)) = (restrict env good).reply := by
  funext choice world request
  cases request <;> rfl

lemma exists_widen {good : χ → Prop} {choices : List (Choice χ)}
    (all : ∀ input ∈ choices.map (·.input), good input) :
    ∃ narrow : List (Choice {input : χ // good input}), narrow.map widen = choices := by
  induction choices with
  | nil => exact ⟨[],rfl⟩
  | cons choice rest ih =>
    obtain ⟨narrow,same⟩ := ih fun input mem => all input (mem_cons_of_mem _ mem)
    exact ⟨⟨choice.fault,choice.input,all _ mem_cons_self⟩::narrow,by rw [map_cons,same]; rfl⟩

variable (env config) in
lemma step_restrict (all : ∀ input ∈ inputs action, good input) (prunes : LogPruning.PrunesBelow sys action) :
    ∃ narrow : Action {input : χ // good input}, phaseOf narrow = phaseOf action ∧ LogPruning.PrunesBelow sys narrow ∧
      sys.step env config action = sys.step (restrict env good) config narrow := by
  cases action with
  | stop => exact ⟨.stop,rfl,by obtain ⟨_,_ | _⟩ := sys <;> trivial,rfl⟩
  | crash => exact ⟨.crash,rfl,by obtain ⟨_,_ | _⟩ := sys <;> trivial,rfl⟩
  | start id choices =>
    obtain ⟨narrow,rfl⟩ := exists_widen all
    refine ⟨.start id narrow,rfl,by obtain ⟨_,_ | _⟩ := sys <;> trivial,?_⟩
    simp only [Sys.step,Prog.run_map,widen_reply]
  | batch choices =>
    obtain ⟨narrow,rfl⟩ := exists_widen all
    refine ⟨.batch narrow,rfl,?_,?_⟩
    · obtain ⟨world,_ | rt⟩ := sys <;> exact prunes
    · simp only [Sys.step,Prog.run_map,widen_reply]

structure Presents (config : QueryConfig) (sys : Sys σ) (journal : Journal σ) : Prop where
  shows_ : Shows sys.world journal
  sound : Sound journal
  process : journal.process = match sys.query with
    | none => .down
    | some rt => .up rt.batchId .idle
  fit : ∀ rt, sys.query = some rt → rt.operators.Fit config

lemma presents_initially (source : σ) : Presents config (initially source) {source} where
  shows_ :=
    { source := rfl
      held := rfl
      history := rfl
      committed := rfl
      resume := rfl
      planned := fun _ _ => rfl
      commits := fun _ _ => rfl }
  sound :=
    { planned := le_rfl
      oneAhead := Nat.zero_le _
      recorded := le_rfl
      resume := .inl ⟨rfl,rfl⟩
      held := fun _ none => by cases none
      up := fun _ _ none => by cases none }
  process := rfl
  fit := fun _ none => by cases none

structure Agrees (config : QueryConfig) (sys : Sys σ) (carried : Carried) : Prop where
  stored : Stored config sys.world carried
  operators : ∀ rt, sys.query = some rt → rt.operators = carried.operators

lemma exists_agrees (config) (sys : Sys σ) : ∃ carried, Agrees config sys carried := by
  obtain ⟨world,_ | rt⟩ := sys
  · exact ⟨⟨{},_⟩,rfl,nofun⟩
  · exact ⟨⟨rt.operators,_⟩,rfl,fun _ same => by cases same; rfl⟩

def path (env : Environment σ χ) (config : QueryConfig) (phase : Phase) (start : Journal σ × Carried) :
    Invariant env config phase :=
  ⟨Relation.ReflTransGen (Moves env config phase) start,fun _ _ step reached => reached.tail step⟩

lemma Shows.rest (shows_ : Shows world journal) : Shows world journal.rest := {shows_ with}

def Settled (journal : Journal σ) : Prop :=
  ∀ done stage, journal.process = .up done stage → stage = .idle ∨ stage = .ended

lemma presents_of_holds (quiet : stage = .idle ∨ stage = .ended)
    (holds : Sys.Phases.Holds
        ⟨Down (path env config phase start),
          fun rt world =>
            rt.operators.Fit config ∧
            ∃ saved, At (path env config phase start) (.up rt.batchId stage) ⟨rt.operators,saved⟩ world⟩ sys) :
    ∃ last carried, (Presents config sys last.rest ∧ Settled last) ∧ Agrees config sys carried ∧
      Relation.ReflTransGen (Moves env config phase) start (last,carried) := by
  obtain ⟨world,_ | rt⟩ := sys
  · obtain ⟨carried,last,down,shows_,sound,stored,reached⟩ := Down.at_ holds
    refine ⟨last,carried,⟨⟨shows_.rest,sound.rest,?_,nofun⟩,
      fun _ _ here => by rw [down] at here; cases here⟩,⟨stored,nofun⟩,reached⟩
    unfold Journal.rest
    rw [down]
  · obtain ⟨fit,saved,last,up,shows_,sound,stored,reached⟩ := holds
    refine ⟨last,_,⟨⟨shows_.rest,sound.rest,?_,fun _ same => by cases same; exact fit⟩,
      fun _ _ here => by rw [up] at here; cases here; exact quiet⟩,⟨stored,fun _ same => by cases same; rfl⟩,reached⟩
    unfold Journal.rest
    rw [up]

section Actions
variable {sys : Sys σ} {journal : Journal σ}

lemma Presents.rest_eq (presents : Presents config sys journal) : journal.rest = journal := by
  have process := presents.process
  obtain ⟨source,ranges,positions,held,recorded,resume,_⟩ := journal
  dsimp only at process
  rw [process]
  cases sys.query <;> rfl

lemma Presents.settled (presents : Presents config sys journal) : Settled journal := by
  intro done stage here
  rw [presents.process] at here
  cases same : sys.query <;> rw [same] at here <;> cases here
  exact .inl rfl

lemma Presents.stop (presents : Presents config sys journal) :
    Presents config (sys.step env config .stop) journal := by
  obtain ⟨world,query⟩ := sys
  have process := presents.process
  have fit := presents.fit
  refine ⟨presents.shows_,presents.sound,?_,?_⟩
  · cases query <;> exact process
  · cases query with
    | none => exact fun _ none => by cases none
    | some rt =>
      rintro _ ⟨rfl⟩
      exact fit rt rfl

lemma Presents.crash (presents : Presents config sys journal) :
    Presents config (sys.step env config .crash) {journal with process := .down} := by
  have shows_ := presents.shows_
  exact ⟨{shows_ with},presents.sound.moved _ _ nofun,rfl,nofun⟩

/-- An action is a path of steps of the journal, with the operators that go with it. -/
lemma step_walked (reads : env.mayFail .getOffsets = false)
    (prunes : LogPruning.PrunesBelow sys action) (presents : Presents config sys journal)
    (agrees : Agrees config sys carried) :
    ∃ last carried', (Presents config (sys.step env config action) last.rest ∧ Settled last) ∧
      Agrees config (sys.step env config action) carried' ∧
      Relation.ReflTransGen (Moves env config (phaseOf action)) (journal,carried) (last,carried') := by
  obtain ⟨world,query⟩ := sys
  have idle := presents.rest_eq
  have settled := presents.settled
  have ⟨shows_,sound,process,fit⟩ := presents
  cases action with
  | start id choices =>
    cases query with
    | some rt => exact ⟨journal,carried,⟨idle.symm ▸ presents,settled⟩,agrees,.refl⟩
    | none =>
      have here : At (path env config .starting (journal,carried)) .down carried world :=
        ⟨journal,process,shows_,sound,agrees.stored,.refl⟩
      exact presents_of_holds (.inl rfl) (Sys.Phases.holds_start id choices world
        (startWithConfig_ensures reads id here))
  | batch choices =>
    cases query with
    | none => exact ⟨journal,carried,⟨idle.symm ▸ presents,settled⟩,agrees,.refl⟩
    | some rt =>
      obtain ⟨operators,saved⟩ := carried
      cases agrees.operators rt rfl
      have here : At (path env config .running (journal,⟨rt.operators,saved⟩)) (.up rt.batchId .idle)
          ⟨rt.operators,saved⟩ world := ⟨journal,process,shows_,sound,agrees.stored,.refl⟩
      exact presents_of_holds (.inr rfl) (Sys.Phases.holds_batch choices rt world
        (runBatch_ensures reads here (fit rt rfl) prunes))
  | stop =>
    refine ⟨journal,carried,⟨idle.symm ▸ presents.stop,settled⟩,?_,.refl⟩
    cases query with
    | none => exact agrees
    | some rt => exact ⟨agrees.stored,fun _ same => by cases same; exact agrees.operators rt rfl⟩
  | crash =>
    exact ⟨_,carried,⟨presents.crash,fun _ _ here => by cases here⟩,⟨agrees.stored,fun _ none => by cases none⟩,
      .single ⟨.crash _,(carries_down _ _ _).mpr rfl⟩⟩

lemma walk_kept (reads : env.mayFail .getOffsets = false)
    (prunes : LogPruning.PrunesBelow sys action) {carried : Carried}
    (presents : Presents config sys journal) (agrees : Agrees config sys carried)
    {holds : Journal σ → Carried → Prop} (held : holds journal carried)
    (kept : ∀ before after carried carried', Step env config before (phaseOf action) after →
      Carries env config before.recorded after.recorded before.process after.process carried carried' →
      Sound before →
      holds before carried → holds after carried') :
    ∃ last carried', (Presents config (sys.step env config action) last.rest ∧ Settled last) ∧
      Agrees config (sys.step env config action) carried' ∧ Sound last ∧ holds last carried' := by
  obtain ⟨last,carried',presented,agrees,walked⟩ := step_walked reads prunes presents agrees
  refine ⟨last,carried',presented,agrees,?_⟩
  suffices all : ∀ here, Relation.ReflTransGen (Moves env config (phaseOf action)) (journal,carried) here →
    Sound here.1 ∧ holds here.1 here.2 from all _ walked
  intro here walked
  induction walked with
  | refl => exact ⟨presents.sound,held⟩
  | tail _ moves ih => exact ⟨ih.1.step moves.1,kept _ _ _ _ moves.1 moves.2 ih.1 ih.2⟩

lemma step_kept (reads : env.mayFail .getOffsets = false) {good : χ → Prop}
    (all : ∀ input ∈ inputs action, good input) (prunes : LogPruning.PrunesBelow sys action)
    (presents : Presents config sys journal) {holds : Journal σ → Prop} (held : holds journal)
    (kept : ∀ before after, Step (restrict env good) config before (phaseOf action) after →
      Sound before → holds before → holds after) :
    ∃ last, Presents config (sys.step env config action) last.rest ∧ Sound last ∧ holds last := by
  obtain ⟨narrow,phase,below,same⟩ := step_restrict env config all prunes
  obtain ⟨carried,agrees⟩ := exists_agrees config sys
  obtain ⟨last,_,presents,_,kept⟩ := @walk_kept _ _ (restrict env good) _ _ _ narrow reads below _
    presents agrees (fun journal _ => holds journal) held fun _ _ _ _ step _ => kept _ _ (phase ▸ step)
  rw [same]
  exact ⟨last,presents.1,kept⟩

/-- What holds between calls is kept by an action if each call keeps something it begins with and
gives it back. -/
lemma action_kept (reads : env.mayFail .getOffsets = false)
    (prunes : LogPruning.PrunesBelow sys action) (presents : Presents config sys journal)
    {holds : Journal σ → Prop} (held : holds journal)
    (crashes : holds {journal with process := .down})
    (starts : ∀ id choices, action = .start id choices → ∃ during : Journal σ → Prop, during journal ∧
      (∀ before after, Step (restrict env fun _ => True) config before .starting after → Sound before →
      during before → during after) ∧ ∀ last, during last → holds last.rest)
    (runs : ∀ rt choices, sys.query = some rt → action = .batch choices →
      ∃ (good : χ → Prop) (during : Journal σ → Prop), (∀ choice ∈ choices, good choice.input) ∧
      during journal ∧ (∀ before after, Step (restrict env good) config before .running after →
      Sound before → during before → during after) ∧ ∀ last, during last → holds last.rest) :
    ∃ after, Presents config (sys.step env config action) after ∧ holds after := by
  obtain ⟨world,query⟩ := sys
  cases action with
  | start id choices =>
    obtain ⟨during,begins,kept,ends⟩ := starts id choices rfl
    obtain ⟨last,presented,_,after⟩ := @step_kept _ _ _ _ _ _ (.start id choices)
      reads _ (fun _ _ => trivial) prunes presents _ begins kept
    exact ⟨_,presented,ends last after⟩
  | batch choices =>
    cases query with
    | none => exact ⟨journal,presents,held⟩
    | some rt =>
      obtain ⟨good,during,all,begins,kept,ends⟩ := runs rt choices rfl rfl
      obtain ⟨last,presented,_,after⟩ := @step_kept _ _ _ _ _ _ (.batch choices) reads good (fun input mem => by
          obtain ⟨choice,among,rfl⟩ := mem_map.mp mem
          exact all choice among) prunes presents _ begins kept
      exact ⟨_,presented,ends last after⟩
  | stop => exact ⟨journal,presents.stop,held⟩
  | crash => exact ⟨_,presents.crash,crashes⟩

end Actions

lemma related_run {allowed : Sys σ → Action χ → Prop} {related : Sys σ → Journal σ → Prop}
    (kept : ∀ sys action journal, allowed sys action → related sys journal →
      ∃ after, related (sys.step env config action) after)
    {sys : Sys σ} {actions : List (Action χ)} (met : Sys.Meets env config allowed sys actions)
    {journal : Journal σ} (held : related sys journal) :
    ∃ after, related (sys.run env config actions) after := by
  induction actions generalizing sys journal with
  | nil => exact ⟨journal,held⟩
  | cons action rest ih =>
    obtain ⟨after,held⟩ := kept sys action journal met.1 held
    exact ih met.2 held

lemma presents_run {allowed : Sys σ → Action χ → Prop} {holds : Journal σ → Prop}
    (kept : ∀ sys action journal, allowed sys action → Presents config sys journal →
      holds journal → ∃ after, Presents config (sys.step env config action) after ∧ holds after)
    {sys : Sys σ} {actions : List (Action χ)} (met : Sys.Meets env config allowed sys actions)
    {journal : Journal σ} (presents : Presents config sys journal) (held : holds journal) :
    ∃ after, Presents config (sys.run env config actions) after ∧ holds after :=
  @related_run _ _ _ _ _ (fun sys journal => Presents config sys journal ∧ holds journal)
    (fun sys action journal met held => kept sys action journal met held.1 held.2) _ _ met _
    ⟨presents,held⟩

end Oxidant.JournalRefinement
