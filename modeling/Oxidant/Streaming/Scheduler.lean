import Oxidant.Streaming.Source
import Oxidant.Lib.Prog

/-! One micro-batch, the recovery of a restarted query and its start; what a query runs against, with
the faults each part can answer with, and the runs of a query that is started, run, crashed and
started again. Times, progress reports and log lines are left out: nothing here reads them back. -/
namespace Oxidant.Streaming
open Lib

structure StreamingQueryId where
  id : String
  runId : String
  deriving DecidableEq, Repr

structure CheckpointState where
  queryId : String := ""
  runId : String := ""
  batchId : Nat := 0
  sourceOffsets : Option SourceOffsets := none
  committedBatchId : Nat := 0
  watermarkMicros : Int := 0
  maxEventTimeMicros : Option Int := none
  dedupState : Option DedupState := none
  prunedThrough : Nat := 0
  deriving DecidableEq

structure BatchCommit where
  batchId : Nat := 0
  numOutputRows : Nat := 0
  resumePosition : Option SourceOffsets := none
  deriving DecidableEq

inductive StoreError where
  | notFound
  | other (message : String)
  deriving DecidableEq, Repr

inductive Request where
  | probe
  | getOffsets
  | putOffsets (state : CheckpointState)
  | getPlanned (batchId : Nat)
  | putPlanned (batchId : Nat) (range : BatchRange)
  | deletePlanned (batchId : Nat)
  | getCommit (batchId : Nat)
  | putCommit (commit : BatchCommit)
  | deleteCommit (batchId : Nat)
  | buildSource
  | restoreOffsets (offsets : SourceOffsets)
  | committedOffsets
  | planBatch
  | pollRange (range : BatchRange)
  | markDurable
  | executePlan (batches : List RecordBatch)
  | countViolations (check : String) (batches : List RecordBatch)
  | buildSink (appId : String)
  | writeBatch (batches : List RecordBatch) (batchId : Nat)

abbrev Answer : Request → Type
  | .probe | .buildSource | .buildSink _ | .markDurable => Except Error Unit
  | .getOffsets => Except StoreError CheckpointState
  | .getPlanned _ => Except StoreError BatchRange
  | .getCommit _ => Except StoreError BatchCommit
  | .putOffsets _ | .putPlanned _ _ | .putCommit _ | .deletePlanned _ | .deleteCommit _ => Except StoreError Unit
  | .restoreOffsets _ => Unit
  | .committedOffsets => Option SourceOffsets
  | .planBatch => Except Error BatchRange
  | .pollRange _ | .executePlan _ => Except Error (List RecordBatch)
  | .countViolations _ _ | .writeBatch _ _ => Except Error Nat

abbrev Method (σ ε : Type) := Act Request Answer σ ε

namespace CheckpointStore
variable {σ ε : Type}

def readObject {α : Type} (answer : Except StoreError α) : Method σ String (Option α) :=
  match answer with
  | .ok value => pure (some value)
  | .error .notFound => pure none
  | .error (.other message) => Act.fail message

def writeObject (answer : Except StoreError Unit) : Method σ String Unit :=
  match answer with
  | .ok () => pure ()
  | .error .notFound => Act.fail "not found"
  | .error (.other message) => Act.fail message

def load : Method σ String CheckpointState := do
  return (← readObject (← Act.request .getOffsets)).getD {}

def save (state : CheckpointState) : Method σ String Unit := do
  writeObject (← Act.request (.putOffsets state))

/-- The load whose error every caller replaces by the default state. -/
def loadOrDefault : Method σ ε CheckpointState := Act.orDefault {} load

def stampRun (id : StreamingQueryId) (state : CheckpointState) : CheckpointState :=
  {state with
    queryId := if state.queryId.isEmpty then id.id else state.queryId
    runId := id.runId}

def initForQuery (id : StreamingQueryId) : Method σ String Unit := do
  let state ← loadOrDefault
  save (stampRun id state)

def savePlanned (batchId : Nat) (range : BatchRange) : Method σ String Unit := do
  writeObject (← Act.request (.putPlanned batchId range))

def loadPlanned (batchId : Nat) : Method σ String (Option BatchRange) := do
  readObject (← Act.request (.getPlanned batchId))

def saveCommit (commit : BatchCommit) : Method σ String Unit := do
  writeObject (← Act.request (.putCommit commit))

def loadCommit (batchId : Nat) : Method σ String (Option BatchCommit) := do
  readObject (← Act.request (.getCommit batchId))

def pruneBatch : Nat := 8

/-- Delete at most `budget` entries after `pruned`, below the committed batch. The deletes' errors
are ignored. -/
def pruneFrom (committedBatchId : Nat) : Nat → Nat → Method σ ε Nat
  | 0,pruned => pure pruned
  | budget+1,pruned =>
    if pruned + 1 < committedBatchId then do
      let _ ← Act.request (.deletePlanned (pruned + 1))
      let _ ← Act.request (.deleteCommit (pruned + 1))
      pruneFrom committedBatchId budget (pruned + 1)
    else pure pruned

def pruneLog (prunedThrough committedBatchId : Nat) : Method σ ε Nat :=
  pruneFrom committedBatchId pruneBatch prunedThrough

end CheckpointStore

open CheckpointStore

def retryAttempts : Nat := 4

def isRetryable : Error → Bool
  | .io _ => true
  | _ => false

inductive ExpectationAction where
  | warn | fail
  deriving DecidableEq, Repr

structure StreamExpectation where
  label : String
  action : ExpectationAction
  check : String
  deriving DecidableEq, Repr

/-- What a query is started with, and the display its keys are rendered by. -/
structure QueryConfig where
  location : String
  pipeline : Bool := false
  watermark : Option WatermarkConfig := none
  dedupColumns : List String := []
  expectations : List StreamExpectation := []
  formatter : ArrayFormatter

structure Operators where
  tracker : WatermarkTracker := {}
  dedup : Option DedupState := none
  dedupKeyCols : List Nat := []
  deriving DecidableEq

structure QueryRuntime where
  batchId : Nat
  isActive : Bool := true
  isDataAvailable : Bool := false
  operators : Operators
  deriving DecidableEq

namespace Operators

def observe (config : QueryConfig) (operators : Operators) (batches : List RecordBatch) : Operators :=
  match config.watermark with
  | none => operators
  | some wm => {operators with tracker := (operators.tracker.observe wm batches).1}

def resolveKeys (config : QueryConfig) (operators : Operators) (batches : List RecordBatch) :
    Except Error (List Nat) :=
  match operators.dedupKeyCols,batches with
  | [],first::_ => resolveKeyColumns first config.dedupColumns
  | keys,_ => .ok keys

def eventTimeCol (config : QueryConfig) (batches : List RecordBatch) : Option Nat :=
  config.watermark.bind fun wm => batches.head?.bind (·.indexOf wm.eventTimeColumn)

def expire (config : QueryConfig) (operators : Operators) (dedup : DedupState) : DedupState :=
  match config.watermark,operators.tracker.maxEventTimeMicros with
  | some wm,some max => dedup.expire (wm.watermarkFor max)
  | _,_ => dedup

def dropDuplicates (config : QueryConfig) (operators : Operators) (batches : List RecordBatch) :
    Except Error (List RecordBatch) × Operators :=
  match operators.dedup with
  | none => (.ok batches,operators)
  | some dedup => match operators.resolveKeys config batches with
    | .error e => (.error e,operators)
    | .ok keys =>
      let resolved := {operators with dedupKeyCols := keys}
      match dedup.dedupBatches config.formatter batches keys (eventTimeCol config batches) with
      | (.error e,next) => (.error e,{resolved with dedup := some next})
      | (.ok out,next) => (.ok out,{resolved with dedup := some (resolved.expire config next)})

def apply (config : QueryConfig) (operators : Operators) (batches : List RecordBatch) :
    Except Error (List RecordBatch) × Operators :=
  (operators.observe config batches).dropDuplicates config batches

def Fit (config : QueryConfig) (operators : Operators) : Prop :=
  config.dedupColumns.isEmpty = true → operators.dedup = none

section Lemmas
variable {config : QueryConfig} {operators : Operators} {batches : List RecordBatch}

@[simp] lemma observe_dedup : (operators.observe config batches).dedup = operators.dedup := by
  unfold observe
  split <;> rfl

@[simp] lemma observe_resolveKeys :
    (operators.observe config batches).resolveKeys config batches = operators.resolveKeys config batches := by
  unfold observe
  split <;> rfl

lemma Fit.apply (fit : operators.Fit config) (batches) : (operators.apply config batches).2.Fit config := by
  intro empty
  have kept : (operators.observe config batches).dedup = none := observe_dedup.trans (fit empty)
  unfold Operators.apply dropDuplicates
  rw [kept]
  exact kept

lemma Fit.apply_eq (fit : operators.Fit config) (empty : config.dedupColumns.isEmpty = true)
    (batches) : (operators.apply config batches).1 = .ok batches := by
  have kept : (operators.observe config batches).dedup = none := observe_dedup.trans (fit empty)
  unfold Operators.apply dropDuplicates
  rw [kept]

lemma dropDuplicates_resolved (dedup keys) (there : operators.dedup = some dedup)
    (resolved : operators.resolveKeys config batches = .ok keys) :
    operators.dropDuplicates config batches =
      let pass := dedup.dedupBatches config.formatter batches keys (eventTimeCol config batches)
      (pass.1,⟨operators.tracker,some (if pass.1.isOk then operators.expire config pass.2 else pass.2),keys⟩) := by
  unfold dropDuplicates
  rw [there,resolved]
  dsimp only
  split <;> next same => rw [same]; rfl

lemma apply_resolved (dedup) (there : operators.dedup = some dedup)
    (resolved : operators.resolveKeys config batches = .ok keys) :
    operators.apply config batches =
      let pass := dedup.dedupBatches config.formatter batches keys (eventTimeCol config batches)
      (pass.1,⟨(operators.observe config batches).tracker,
        some (if pass.1.isOk then (operators.observe config batches).expire config pass.2
          else pass.2),keys⟩) :=
  dropDuplicates_resolved dedup keys (observe_dedup.trans there) (observe_resolveKeys.trans resolved)

end Lemmas
end Operators

namespace StreamingQueryManager

section Calls
variable {σ : Type}

def probe : Method σ Error Unit := do Act.raise (← Act.request .probe)

def buildSource : Method σ Error Unit := do Act.raise (← Act.request .buildSource)

def buildSink (appId : String) : Method σ Error Unit := do
  Act.raise (← Act.request (.buildSink appId))

def planBatch : Method σ Error BatchRange := do Act.raise (← Act.request .planBatch)

def pollRange (range : BatchRange) : Method σ Error (List RecordBatch) := do
  Act.raise (← Act.request (.pollRange range))

def markDurable : Method σ Error Unit := do Act.raise (← Act.request .markDurable)

def executePlan (batches : List RecordBatch) : Method σ Error (List RecordBatch) := do
  Act.raise (← Act.request (.executePlan batches))

def writeBatch (batches : List RecordBatch) (batchId : Nat) : Method σ Error Nat := do
  Act.raise (← Act.request (.writeBatch batches batchId))

def countViolations (batches : List RecordBatch) (check : String) : Method σ Error Nat :=
  if batches.isEmpty then pure 0
  else do Act.raise (← Act.request (.countViolations check batches))

def restoreOffsets : Option SourceOffsets → Method σ Error Unit
  | some offsets => Act.request (Request.restoreOffsets offsets)
  | none => pure ()

end Calls

variable (config : QueryConfig)

def checkpointError (what e : String) : Error :=
  .io s!"streaming checkpoint `{config.location}`: {what}{e}"

/-- The recorded range of the batch, or a new plan recorded before it is read. `none` is an idle
trigger. -/
def obtainRange (batchId : Nat) : Method QueryRuntime Error (Option BatchRange) := do
  match ← Act.mapError (checkpointError config s!"reading the planned range for batch {batchId}: ")
      (loadPlanned batchId) with
  | some range => return some range
  | none =>
    let range ← Act.withRetry isRetryable (retryAttempts - 1) planBatch
    if range.isEmpty then
      Act.modify fun rt => {rt with isDataAvailable := false}
      return none
    else
      Act.mapError (checkpointError config s!"recording batch {batchId}: ") (savePlanned batchId range)
      return some range

def transform (sourceBatches : List RecordBatch) : Method QueryRuntime Error (List RecordBatch) :=
  if config.pipeline then executePlan sourceBatches else pure sourceBatches

def applyOperators (batches : List RecordBatch) : Method QueryRuntime Error (List RecordBatch) := do
  let rt ← Act.get
  Act.modify fun rt => {rt with operators := (rt.operators.apply config batches).2}
  Act.raise (rt.operators.apply config batches).1

def checkExpectations (batchId : Nat) (batches : List RecordBatch) :
    List StreamExpectation → Method QueryRuntime Error Unit
  | [] => pure ()
  | expectation::rest => do
    let violations ← countViolations batches expectation.check
    if violations = 0 ∨ expectation.action = .warn then checkExpectations batchId batches rest
    else Act.fail (.execution (s!"expectation `{expectation.label}` failed on batch {batchId}: " ++
      s!"{violations} record(s) do not satisfy `{expectation.check}`; the table is unchanged"))

/-- Everything between the poll and the sink: the rows this attempt hands to the sink. -/
def prepareRows (batchId : Nat) (sourceBatches : List RecordBatch) :
    Method QueryRuntime Error (List RecordBatch) := do
  let batches ← transform config sourceBatches
  let batches ← applyOperators config batches
  checkExpectations batchId batches config.expectations
  return batches

/-- A range that yields no records is got past without reaching the sink. -/
def writeRows (batchId : Nat) (sourceBatches : List RecordBatch) : Method QueryRuntime Error Nat :=
  if totalRows sourceBatches = 0 then pure 0
  else do
    let batches ← prepareRows config batchId sourceBatches
    Act.withRetry isRetryable (retryAttempts - 1) (writeBatch batches batchId)

def nextCheckpoint (batchId : Nat) (offsets : Option SourceOffsets) (operators : Operators)
    (pruned : Nat) (checkpoint : CheckpointState) : CheckpointState :=
  {checkpoint with
    batchId
    committedBatchId := batchId
    sourceOffsets := offsets
    maxEventTimeMicros := operators.tracker.maxEventTimeMicros
    watermarkMicros := match config.watermark,operators.tracker.maxEventTimeMicros with
      | some wm,some max => wm.watermarkFor max
      | _,_ => checkpoint.watermarkMicros
    dedupState := operators.dedup
    prunedThrough := pruned}

def commitBatch (batchId rows : Nat) : Method QueryRuntime Error (Option SourceOffsets) := do
  let offsets ← Act.request .committedOffsets
  Act.mapError (checkpointError config s!"committing batch {batchId}: ")
    (saveCommit {batchId,numOutputRows := rows,resumePosition := offsets})
  Act.modify fun rt => {rt with batchId,isDataAvailable := true}
  return offsets

/-- The resume record: loaded, brought up to date, and saved after the logs are pruned. -/
def saveCheckpoint (batchId : Nat) (offsets : Option SourceOffsets) : Method QueryRuntime Error Unit := do
  let checkpoint ← loadOrDefault
  let rt ← Act.get
  let pruned ← pruneLog checkpoint.prunedThrough batchId
  Act.mapError (checkpointError config "")
    (save (nextCheckpoint config batchId offsets rt.operators pruned checkpoint))

def runBatchInner : Method QueryRuntime Error Nat := do
  let rt ← Act.get
  let batchId := rt.batchId + 1
  match ← obtainRange config batchId with
  | none => return 0
  | some range =>
    let sourceBatches ← Act.withRetry isRetryable (retryAttempts - 1) (pollRange range)
    let rows ← writeRows config batchId sourceBatches
    let offsets ← commitBatch config batchId rows
    saveCheckpoint config batchId offsets
    markDurable
    return totalRows sourceBatches

def runBatch : Method QueryRuntime Error Nat := do
  let rt ← Act.get
  if rt.isActive then runBatchInner config else return 0

def maxRecovered : Nat := 64

/-- Walk the commit log from a resume record, recording each batch it finds committed. -/
def recoverFrom : Nat → CheckpointState → Method Unit Error CheckpointState
  | 0,state => pure state
  | bound+1,state => do
    let next := state.committedBatchId + 1
    match ← Act.mapError (checkpointError config "reading the commit log: ") (loadCommit next) with
    | none => return state
    | some commit => match commit.resumePosition with
      | none => return state
      | some resumed =>
        let state := {state with
          committedBatchId := next,batchId := next,sourceOffsets := some resumed}
        Act.mapError (checkpointError config "") (save state)
        recoverFrom bound state

def recoverFromLog : Method Unit Error CheckpointState := do
  recoverFrom config maxRecovered (← loadOrDefault)

def resume (restored : CheckpointState) : QueryRuntime where
  batchId := restored.committedBatchId
  operators :=
    { tracker := .restore restored.maxEventTimeMicros
      dedup := if config.dedupColumns.isEmpty then none
        else some (restored.dedupState.getD {}) }

def startWithConfig (id : StreamingQueryId) : Method Unit Error QueryRuntime := do
  probe
  buildSource
  let restored ← recoverFromLog config
  restoreOffsets restored.sourceOffsets
  let appId := if restored.queryId.isEmpty then id.id else restored.queryId
  buildSink appId
  Act.mapError (fun e => .io s!"streaming checkpoint `{config.location}` is not writable: {e}") (initForQuery id)
  return resume config restored

end StreamingQueryManager

open StreamingQueryManager List

structure Disk where
  offsets : Option CheckpointState := none
  planned : Nat → Option BatchRange := fun _ => none
  commits : Nat → Option BatchCommit := fun _ => none

def Disk.committed (disk : Disk) : Nat := (disk.offsets.getD {}).committedBatchId

/-- A sink that drops a batch id not greater than the highest one it committed. -/
structure Sink where
  appId : String := ""
  held : List (Nat × List RecordBatch) := []

namespace Sink

def highest (sink : Sink) : Nat := sink.held.foldr (fun item rest => max item.1 rest) 0

lemma highest_le (sink : Sink) (bound) (below : ∀ item ∈ sink.held, item.1 ≤ bound) : sink.highest ≤ bound := by
  obtain ⟨appId,held⟩ := sink
  change held.foldr (fun item rest => max item.1 rest) 0 ≤ bound
  induction held with
  | nil => exact Nat.zero_le _
  | cons item rest ih =>
    have first := below item mem_cons_self
    have others := ih fun item mem => below item (mem_cons_of_mem _ mem)
    simp only [foldr_cons]
    omega

lemma le_highest (sink : Sink) (mem : item ∈ sink.held) : item.1 ≤ sink.highest := by
  obtain ⟨appId,held⟩ := sink
  induction held with
  | nil => cases mem
  | cons first rest ih =>
    rcases mem_cons.mp mem with here | later
    · subst here
      exact le_max_left _ _
    · exact le_trans (ih later) (le_max_right _ _)

def writeBatch (sink : Sink) (batches : List RecordBatch) (batchId : Nat) : Nat × Sink :=
  if batchId ≤ sink.highest then (0,sink)
  else (totalRows batches,{sink with held := sink.held ++ [(batchId,batches)]})

end Sink

structure World (σ : Type) where
  disk : Disk := {}
  sink : Sink := {}
  source : σ
  /-- The ranges of the batches whose commit entry was written: history, read by no request. -/
  history : List BatchRange := []

namespace World
variable {σ : Type}

def setOffsets (world : World σ) (state : CheckpointState) : World σ :=
  {world with disk := {world.disk with offsets := some state}}

def setPlanned (world : World σ) (batchId : Nat) (entry : Option BatchRange) : World σ :=
  {world with disk := {world.disk with
    planned := fun id => if id = batchId then entry else world.disk.planned id}}

def deleteCommit (world : World σ) (batchId : Nat) : World σ :=
  {world with disk := {world.disk with
    commits := fun id => if id = batchId then none else world.disk.commits id}}

def putCommit (world : World σ) (commit : BatchCommit) : World σ :=
  {world with
    disk := {world.disk with
      commits := fun id => if id = commit.batchId then some commit else world.disk.commits id}
    history := if world.history.length < commit.batchId
      then world.history ++ (world.disk.planned commit.batchId).toList else world.history}

end World

/-- An error a request is answered with, and whether its effect took place all the same. -/
structure Fault where
  error : Error
  landed : Bool
  deriving DecidableEq, Repr

structure Choice (χ : Type) where
  fault : Option Fault := none
  input : χ

/-- The outside of a query. `build` makes a source anew; `mayFail` says which requests can meet a
fault. -/
structure Environment (σ χ : Type) where
  source : Source σ χ
  build : σ → σ
  plan : List RecordBatch → List RecordBatch := id
  violations : String → List RecordBatch → Nat := fun _ _ => 0
  mayFail : Request → Bool

namespace Environment
variable {σ χ : Type}

def getObject {α : Type} (fault : Option Fault) (object : Option α) (world : World σ) :
    Except StoreError α × World σ :=
  match fault,object with
  | some fault,_ => (.error (.other fault.error.display),world)
  | none,some value => (.ok value,world)
  | none,none => (.error .notFound,world)

def putObject (fault : Option Fault) (world after : World σ) : Except StoreError Unit × World σ :=
  match fault with
  | none => (.ok (),after)
  | some fault => (.error (.other fault.error.display),if fault.landed then after else world)

def perform {α : Type} (fault : Option Fault) (world : World σ) (value : α) (after : World σ) :
    Except Error α × World σ :=
  match fault with
  | none => (.ok value,after)
  | some fault => (.error fault.error,if fault.landed then after else world)

def faultOf (env : Environment σ χ) (choice : Choice χ) (request : Request) : Option Fault :=
  if env.mayFail request then choice.fault else none

def reply (env : Environment σ χ) : Device Request Answer (Choice χ) (World σ) :=
  fun choice world request =>
  let fault := env.faultOf choice request
  match request with
  | .probe => perform fault world () world
  | .getOffsets => getObject fault world.disk.offsets world
  | .putOffsets state => putObject fault world (world.setOffsets state)
  | .getPlanned batchId => getObject fault (world.disk.planned batchId) world
  | .putPlanned batchId range => putObject fault world (world.setPlanned batchId (some range))
  | .deletePlanned batchId => putObject fault world (world.setPlanned batchId none)
  | .getCommit batchId => getObject fault (world.disk.commits batchId) world
  | .putCommit commit => putObject fault world (world.putCommit commit)
  | .deleteCommit batchId => putObject fault world (world.deleteCommit batchId)
  | .buildSource => perform fault world () {world with source := env.build world.source}
  | .restoreOffsets offsets => ((),{world with source := env.source.restoreOffsets offsets world.source})
  | .committedOffsets => (env.source.committedOffsets world.source,world)
  | .planBatch =>
    let (answer,source) := env.source.planBatch choice.input world.source
    (answer,{world with source})
  | .pollRange range =>
    let (answer,source) := env.source.pollRange choice.input range world.source
    (answer,{world with source})
  | .markDurable =>
    let (answer,source) := env.source.markDurable choice.input world.source
    (answer,{world with source})
  | .executePlan batches => perform fault world (env.plan batches) world
  | .countViolations check batches => perform fault world (env.violations check batches) world
  | .buildSink appId => perform fault world () {world with sink := {world.sink with appId}}
  | .writeBatch batches batchId =>
    let (rows,sink) := world.sink.writeBatch batches batchId
    perform fault world rows {world with sink}

def undisturbed (env : Environment σ χ) : Environment σ χ := {env with mayFail := fun _ => false}

/-- The same outside, in which only the reads of the resume record can fail. -/
def unreadable (env : Environment σ χ) : Environment σ χ :=
  {env with
    mayFail
      | .getOffsets => true
      | _ => false}

end Environment

/-- A call spends one choice for each request; a call that is out of them is a process that died
there. -/
inductive Action (χ : Type) where
  | start (id : StreamingQueryId) (choices : List (Choice χ))
  | batch (choices : List (Choice χ))
  | stop
  | crash

structure Sys (σ : Type) where
  world : World σ
  query : Option QueryRuntime := none

namespace Sys
variable {σ χ : Type} (env : Environment σ χ) (config : QueryConfig)

def step (sys : Sys σ) : Action χ → Sys σ
  | .start id choices => match sys.query with
    | some _ => sys
    | none => match (startWithConfig config id ()).run env.reply choices sys.world with
      | (some (.ok rt,_),world) => ⟨world,some rt⟩
      | (_,world) => ⟨world,none⟩
  | .batch choices => match sys.query with
    | none => sys
    | some rt => match (runBatch config rt).run env.reply choices sys.world with
      | (some (_,rt),world) => ⟨world,some rt⟩
      | (none,world) => ⟨world,none⟩
  | .stop => {sys with query := sys.query.map fun rt => {rt with isActive := false}}
  | .crash => {sys with query := none}

def run (sys : Sys σ) (actions : List (Action χ)) : Sys σ := actions.foldl (step env config) sys

def Meets (allowed : Sys σ → Action χ → Prop) : Sys σ → List (Action χ) → Prop
  | _,[] => True
  | sys,action::actions => allowed sys action ∧ Meets allowed (sys.step env config action) actions

instance decidableMeets (allowed : Sys σ → Action χ → Prop)
    [∀ sys action, Decidable (allowed sys action)] :
    ∀ sys actions, Decidable (Meets env config allowed sys actions)
  | _,[] => .isTrue trivial
  | sys,action::actions =>
    have := decidableMeets allowed (sys.step env config action) actions
    inferInstanceAs (Decidable (_ ∧ _))

/-- A property of the world while the query is down, and one of the query and the world while
it is up. -/
structure Phases (σ : Type) where
  down : World σ → Prop
  up : QueryRuntime → World σ → Prop

def Phases.Holds (phases : Phases σ) (sys : Sys σ) : Prop :=
  match sys.query with
  | none => phases.down sys.world
  | some rt => phases.up rt sys.world

variable {env config} {phases : Phases σ} {allowed : Sys σ → Action χ → Prop}

lemma meets_of_all (all : ∀ sys action, allowed sys action) (sys actions) : Meets env config allowed sys actions := by
  induction actions generalizing sys with
  | nil => exact trivial
  | cons action actions ih => exact ⟨all sys action,ih _⟩

lemma meets_append {before after} :
    Meets env config allowed sys (before ++ after) ↔
    Meets env config allowed sys before ∧ Meets env config allowed (sys.run env config before) after := by
  induction before generalizing sys with
  | nil => simp [Meets,run]
  | cons action before ih => simp only [List.cons_append,Meets,ih,and_assoc,run,List.foldl_cons]

lemma meets_and (first : Meets env config allowed sys actions) (second : Meets env config other sys actions) :
    Meets env config (fun sys action => allowed sys action ∧ other sys action) sys actions := by
  induction actions generalizing sys with
  | nil => exact trivial
  | cons action actions ih => exact ⟨⟨first.1,second.1⟩,ih first.2 second.2⟩

lemma Phases.holds_start (id choices world)
    (ensures : (startWithConfig config id).Ensures env.reply phases.down (fun result _ final => match result with
        | .ok rt => phases.up rt final
        | .error _ => phases.down final) () world) :
    phases.Holds (Sys.step env config ⟨world,none⟩ (.start id choices)) := by
  have done := Prog.run_ensures _ _ ensures choices
  revert done
  dsimp only [Sys.step]
  generalize (startWithConfig config id ()).run env.reply choices world = out
  intro done
  obtain ⟨_ | ⟨_ | rt,_⟩,final⟩ := out <;> exact done

lemma Phases.holds_batch (choices rt world)
    (ensures : (runBatch config).Ensures env.reply phases.down (fun _ after final => phases.up after final)
        rt world) :
    phases.Holds (Sys.step env config ⟨world,some rt⟩ (.batch choices)) := by
  have done := Prog.run_ensures _ _ ensures choices
  revert done
  dsimp only [Sys.step]
  generalize (runBatch config rt).run env.reply choices world = out
  intro done
  obtain ⟨_ | ⟨_,rt⟩,final⟩ := out <;> exact done

end Sys
end Oxidant.Streaming
