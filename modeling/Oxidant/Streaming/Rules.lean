import Oxidant.Streaming.Scheduler

/-! Proof rules for the requests of a query: what each method can return and what it leaves
of the world, its faults included. -/
namespace Oxidant.Streaming
open Lib CheckpointStore StreamingQueryManager Act

variable {env : Environment σ χ}

lemma faultOf_isSome (request) (met : (env.faultOf choice request).isSome) : env.mayFail request = true := by
  unfold Environment.faultOf at met
  split at met
  · assumption
  · cases met

variable (fault : Option Fault) (batchId : Nat) (batches : List RecordBatch) (config : QueryConfig)

private lemma readObject_ensures (object : Option α) (found : post (.ok object) state world)
    (failed : fault.isSome → ∀ e, post (.error e) state world) :
    (readObject (Environment.getObject fault object world).1).Ensures env.reply safe post state
      (Environment.getObject fault object world).2 := by
  rcases fault with _ | fault
  · rcases object with _ | value <;> exact found
  · exact failed rfl _

private lemma writeObject_ensures (done : post (.ok ()) state written)
    (failed : fault.isSome → ∀ e, post (.error e) state world ∧ post (.error e) state written) :
    (writeObject (Environment.putObject fault world written).1).Ensures env.reply safe post state
      (Environment.putObject fault world written).2 := by
  rcases fault with _ | ⟨error,_ | _⟩
  · exact done
  · exact (failed rfl _).1
  · exact (failed rfl _).2

lemma loadPlanned_ensures (alive : safe world) (found : post (.ok (world.disk.planned batchId)) state world)
    (failed : env.mayFail (.getPlanned batchId) = true → ∀ e, post (.error e) state world) :
    (loadPlanned batchId).Ensures env.reply safe post state world := by
  exact ⟨alive,fun _ => readObject_ensures _ _ found fun met => failed (faultOf_isSome _ met)⟩

lemma loadCommit_ensures (alive : safe world) (found : post (.ok (world.disk.commits batchId)) state world)
    (failed : env.mayFail (.getCommit batchId) = true → ∀ e, post (.error e) state world) :
    (loadCommit batchId).Ensures env.reply safe post state world := by
  exact ⟨alive,fun _ => readObject_ensures _ _ found fun met => failed (faultOf_isSome _ met)⟩

lemma load_ensures (alive : safe world) (found : post (.ok (world.disk.offsets.getD {})) state world)
    (failed : env.mayFail .getOffsets = true → ∀ e, post (.error e) state world) :
    load.Ensures env.reply safe post state world := by
  unfold load
  rw [ensures_bind,ensures_request]
  refine ⟨alive,fun _ => ?_⟩
  dsimp only
  rw [ensures_bind]
  exact readObject_ensures _ _ found fun met => failed (faultOf_isSome _ met)

lemma loadOrDefault_ensures (alive : safe world) (found : post (.ok (world.disk.offsets.getD {})) state world)
    (failed : env.mayFail .getOffsets = true → post (.ok {}) state world) :
    loadOrDefault.Ensures env.reply safe post state world := by
  unfold loadOrDefault
  rw [ensures_orDefault]
  exact load_ensures alive found fun met _ => failed met

lemma save_ensures (alive : safe world) (done : post (.ok ()) state (world.setOffsets saved))
    (failed : env.mayFail (.putOffsets saved) = true →
      ∀ e, post (.error e) state world ∧ post (.error e) state (world.setOffsets saved)) :
    (save saved).Ensures env.reply safe post state world := by
  exact ⟨alive,fun _ => writeObject_ensures _ done fun met => failed (faultOf_isSome _ met)⟩

lemma savePlanned_ensures (alive : safe world) (done : post (.ok ()) state (world.setPlanned batchId (some range)))
    (failed : env.mayFail (.putPlanned batchId range) = true →
      ∀ e, post (.error e) state world ∧ post (.error e) state (world.setPlanned batchId (some range))) :
    (savePlanned batchId range).Ensures env.reply safe post state world := by
  exact ⟨alive,fun _ => writeObject_ensures _ done fun met => failed (faultOf_isSome _ met)⟩

lemma saveCommit_ensures (alive : safe world) (done : post (.ok ()) state (world.putCommit commit))
    (failed : env.mayFail (.putCommit commit) = true →
      ∀ e, post (.error e) state world ∧ post (.error e) state (world.putCommit commit)) :
    (saveCommit commit).Ensures env.reply safe post state world := by
  exact ⟨alive,fun _ => writeObject_ensures _ done fun met => failed (faultOf_isSome _ met)⟩

private lemma putObject_keeps (written) (kept : World σ → Prop) (lost : kept world) (deleted : kept written) :
    kept (Environment.putObject fault world written).2 := by
  rcases fault with _ | ⟨error,_ | _⟩ <;> assumption

lemma pruneFrom_ensures (kept : World σ → Prop) (alive : ∀ world, kept world → safe world)
    (forgets : ∀ world id, kept world → id < committedBatchId → id ≤ bound →
        kept (world.setPlanned id none) ∧ kept (world.deleteCommit id))
    (pruned) (inside : pruned + budget ≤ bound) (world : World σ) (holds : kept world) :
    (pruneFrom committedBatchId budget pruned : Method τ ε Nat).Ensures env.reply safe
      (fun result after final => after = state ∧ kept final ∧ ∃ last, result = .ok last) state world := by
  induction budget generalizing pruned world with
  | zero => exact ⟨rfl,holds,pruned,rfl⟩
  | succ budget ih =>
    unfold pruneFrom
    split
    · refine ⟨alive _ holds,fun first => ?_⟩
      have planned := putObject_keeps (env.faultOf first (.deletePlanned (pruned + 1))) _ kept
        holds (forgets world (pruned + 1) holds (by omega) (by omega)).1
      refine ⟨alive _ planned,fun second => ?_⟩
      exact ih (pruned + 1) (by omega) _ (putObject_keeps _ _ kept planned
        (forgets _ (pruned + 1) planned (by omega) (by omega)).2)
    · exact ⟨rfl,holds,pruned,rfl⟩

lemma pruneLog_ensures (kept : World σ → Prop) (alive : ∀ world, kept world → safe world)
    (forgets : ∀ world id, kept world → id < committedBatchId → id ≤ prunedThrough + pruneBatch →
        kept (world.setPlanned id none) ∧ kept (world.deleteCommit id))
    (holds : kept world) :
    (pruneLog prunedThrough committedBatchId : Method τ ε Nat).Ensures env.reply safe
      (fun result after final => after = state ∧ kept final ∧ ∃ last, result = .ok last) state world :=
  pruneFrom_ensures kept alive forgets prunedThrough le_rfl world holds

private lemma raised_ensures (request) {read : Answer request → Except Error α}
    {post : Except Error α → τ → World σ → Prop} (alive : safe world)
    (answered : ∀ choice, post (read (env.reply choice world request).1) state (env.reply choice world request).2) :
    (do Act.raise (read (← Act.request request)) : Method τ Error α).Ensures env.reply safe post state world := by
  exact ⟨alive,fun choice => (ensures_raise _).mpr (answered choice)⟩

lemma planBatch_ensures (alive : safe world)
    (answered : ∀ input, post (env.source.planBatch input world.source).1 state
          {world with source := (env.source.planBatch input world.source).2}) :
    planBatch.Ensures env.reply safe post state world := by
  exact raised_ensures _ alive fun choice => answered choice.input

lemma pollRange_ensures (range) (alive : safe world)
    (answered : ∀ input, post (env.source.pollRange input range world.source).1 state
          {world with source := (env.source.pollRange input range world.source).2}) :
    (pollRange range).Ensures env.reply safe post state world := by
  exact raised_ensures _ alive fun choice => answered choice.input

lemma markDurable_ensures (alive : safe world)
    (answered : ∀ input, post (env.source.markDurable input world.source).1 state
          {world with source := (env.source.markDurable input world.source).2}) :
    markDurable.Ensures env.reply safe post state world := by
  exact raised_ensures _ alive fun choice => answered choice.input

private lemma perform_cases (value after) (post : Except Error α → World σ → Prop)
    (done : post (.ok value) after) (failed : ∀ e, post (.error e) world ∧ post (.error e) after) :
    post (Environment.perform fault world value after).1 (Environment.perform fault world value after).2 := by
  rcases fault with _ | ⟨error,_ | _⟩
  · exact done
  · exact (failed error).1
  · exact (failed error).2

lemma probe_ensures (alive : safe world) (answered : ∀ result, post result state world) :
    probe.Ensures env.reply safe post state world := by
  exact raised_ensures _ alive fun choice => perform_cases _ _ _
    (fun result final => post result state final) (answered _) fun _ => ⟨answered _,answered _⟩

lemma executePlan_ensures (alive : safe world) (executed : post (.ok (env.plan batches)) state world)
    (failed : ∀ e, post (.error e) state world) :
    (executePlan batches).Ensures env.reply safe post state world := by
  exact raised_ensures _ alive fun choice => perform_cases _ _ _
    (fun result final => post result state final) executed fun e => ⟨failed e,failed e⟩

def handed (env : Environment σ χ) (config : QueryConfig) (batches : List RecordBatch) : List RecordBatch :=
  if config.pipeline then env.plan batches else batches

lemma transform_ensures (batches : List RecordBatch) (alive : safe world)
    (executed : post (.ok (handed env config batches)) rt world) (failed : ∀ e, post (.error e) rt world) :
    (transform config batches).Ensures env.reply safe post rt world := by
  unfold transform
  unfold handed at executed
  split
  · next plan =>
    rw [if_pos plan] at executed
    exact executePlan_ensures batches alive executed failed
  · next none =>
    rw [if_neg none] at executed
    exact executed

lemma applyOperators_ensures (batches) :
    (applyOperators config batches).Ensures env.reply safe post rt world ↔
    post (rt.operators.apply config batches).1 {rt with operators := (rt.operators.apply config batches).2}
      world := by
  unfold applyOperators
  rw [ensures_get_bind,ensures_bind,ensures_modify]
  rw [ensures_raise]

lemma countViolations_ensures (alive : safe world) (answered : ∀ result, post result state world) :
    (countViolations batches check).Ensures env.reply safe post state world := by
  unfold countViolations
  split
  · exact answered _
  · exact raised_ensures _ alive fun choice => perform_cases _ _ _
      (fun result final => post result state final) (answered _) fun _ => ⟨answered _,answered _⟩

lemma checkExpectations_ensures (batches expectations) (alive : safe world)
    (answered : ∀ result, post result rt world) :
    (checkExpectations batchId batches expectations).Ensures env.reply safe post rt world := by
  induction expectations with
  | nil => exact answered _
  | cons expectation rest ih =>
    unfold checkExpectations
    rw [ensures_bind]
    refine countViolations_ensures batches alive fun result => ?_
    rcases result with e | violations
    · exact answered _
    · dsimp only
      split
      · exact ih
      · exact answered _

lemma prepareRows_ensures (batchId) (sourceBatches : List RecordBatch) (alive : safe world) :
    (prepareRows config batchId sourceBatches).Ensures env.reply safe (fun result after final =>
        final = world ∧ after = {rt with operators := after.operators} ∧
        (rt.operators.Fit config → after.operators.Fit config) ∧
        ∀ out, result = .ok out →
          rt.operators.apply config (handed env config sourceBatches) = (.ok out,after.operators)) rt world := by
  unfold prepareRows
  rw [ensures_bind]
  refine transform_ensures config _ alive ?_ fun _ => ⟨rfl,rfl,id,nofun⟩
  dsimp only
  rw [ensures_bind,applyOperators_ensures]
  cases applied : (rt.operators.apply config (handed env config sourceBatches)).1 with
  | error e => exact ⟨rfl,rfl,fun fit => fit.apply _,nofun⟩
  | ok batches =>
    dsimp only
    rw [ensures_bind]
    refine checkExpectations_ensures _ _ _ alive fun result => ?_
    cases result with
    | error e => exact ⟨rfl,rfl,fun fit => fit.apply _,nofun⟩
    | ok _ =>
      refine ⟨rfl,rfl,fun fit => fit.apply _,fun out same => ?_⟩
      cases same
      exact Prod.ext applied rfl

lemma buildSource_ensures (alive : safe world)
    (built : post (.ok ()) state {world with source := env.build world.source})
    (failed : ∀ e, post (.error e) state world ∧
      post (.error e) state {world with source := env.build world.source}) :
    buildSource.Ensures env.reply safe post state world := by
  exact raised_ensures _ alive fun choice => perform_cases _ _ _
    (fun result final => post result state final) built failed

lemma buildSink_ensures (alive : safe world)
    (built : post (.ok ()) state {world with sink := {world.sink with appId}})
    (failed : ∀ e, post (.error e) state world ∧ post (.error e) state {world with sink := {world.sink with appId}}) :
    (buildSink appId).Ensures env.reply safe post state world := by
  exact raised_ensures _ alive fun choice => perform_cases _ _ _
    (fun result final => post result state final) built failed

lemma restoreOffsets_ensures (alive : safe world) (restored : post (.ok ()) state {world with
      source := offsets.elim world.source (env.source.restoreOffsets · world.source)}) :
    (restoreOffsets offsets).Ensures env.reply safe post state world := by
  rcases offsets with _ | offsets
  · exact restored
  · exact ⟨alive,fun _ => restored⟩

lemma initForQuery_ensures (id : StreamingQueryId) (alive : safe world) (reads : env.mayFail .getOffsets = false)
    (stamped : post (.ok ()) state (world.setOffsets (stampRun id (world.disk.offsets.getD {}))))
    (failed : ∀ e, post (.error e) state world ∧
        post (.error e) state (world.setOffsets (stampRun id (world.disk.offsets.getD {})))) :
    (initForQuery id).Ensures env.reply safe post state world := by
  unfold initForQuery
  rw [ensures_bind]
  refine loadOrDefault_ensures alive ?_ fun met => by simp [reads] at met
  exact save_ensures alive stamped fun _ => failed

lemma writeBatch_ensures (batchId) (alive : safe world)
    (written : post (.ok (world.sink.writeBatch batches batchId).1) state
        {world with sink := (world.sink.writeBatch batches batchId).2})
    (failed : ∀ e, post (.error e) state world ∧
        post (.error e) state {world with sink := (world.sink.writeBatch batches batchId).2}) :
    (writeBatch batches batchId).Ensures env.reply safe post state world := by
  exact raised_ensures _ alive fun choice => perform_cases _ _ _
    (fun result final => post result state final) written failed

end Oxidant.Streaming
