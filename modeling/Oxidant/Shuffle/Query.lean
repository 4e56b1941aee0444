import Mathlib.Data.List.Sort
import Oxidant.Shuffle.Ownership
import Mathlib.Data.List.Infix
import Oxidant.Lib.Steps

/-! A run of one query: the driver dispatches the tasks of a stage once its upstreams are complete,
each task pulls its buckets one by one from the workers and runs, and a worker may lose its cache at
any time, by a restart at the same endpoint or by the age of its entries. A worker without an entry
of the stage answers with no batch, which arrives as an empty batch without columns. -/
namespace Oxidant.Shuffle
open List
open Streaming (RecordBatch)

def alignBatchSchema (batch : RecordBatch) (schema : Schema) : Option RecordBatch :=
  if batch.schema = schema then some batch
  else if schema ≠ [] ∧ batch.schema.map (·.dataType) = schema.map (·.dataType) then
    some {batch with schema}
  else none

structure Served where
  key : Scope
  stamp : Option Nat
  schema : Schema
  part : Except Error (List RecordBatch)

def stampOf (stamps : List (Scope × Nat)) (key : Scope) : Option Nat :=
  (stamps.find? fun stamp => stamp.1 = key).map (·.2)

def stampLe : Option Nat → Option Nat → Bool
  | none,_ => true
  | some _,none => false
  | some first,some second => first ≤ second

def fitPart (schema : Schema) (entry : Served) (part : List RecordBatch) : List RecordBatch :=
  if entry.schema = schema then part
  else (part.mapM (alignBatchSchema · schema)).getD []

def readEntry (stage partition : Nat) (schema : Schema) (entry : Served) : Except Error (List RecordBatch) :=
  match entry.part with
  | .ok part => .ok (fitPart schema entry part)
  | .error e =>
    let (src,e) := (entry.key.src,e.display)
    .error (.execution s!"shuffle read stage {stage} partition {partition} src {src}: {e}")

def serveStage (entries : List Served) (stage partition : Nat) : Except Error (List RecordBatch) :=
  let entries := (entries.filter fun entry => entry.key.stage = stage).insertionSort fun first second =>
    stampLe first.stamp second.stamp = true
  match entries.getLast? with
  | none => .ok []
  | some freshest => do
    let parts ← entries.mapM (readEntry stage partition freshest.schema)
    return BucketCache.orEmpty freshest.schema parts.flatten

/-- `batches_to_stream` and `do_get_batches_once`: empty batches do not cross, their schema does. -/
def overFlight (batches : List RecordBatch) : List RecordBatch :=
  BucketCache.orEmpty ((batches.head?.map (·.schema)).getD []) batches

/-- What a consumer registers of one upstream: placeholders without columns go once a batch has
some. -/
def assembleInput (input : List RecordBatch) : List RecordBatch :=
  let input := if 1 < input.length && input.any fun batch => !batch.schema.isEmpty then
    input.filter fun batch => !batch.schema.isEmpty else input
  match input with
  | [] => []
  | first::_ => input.map fun batch => (alignBatchSchema batch first.schema).getD batch

structure Output where
  key : Scope
  schema : Schema
  buckets : List (List RecordBatch)
  deriving DecidableEq, Repr

/-- A worker as its consumers see it: what its entries serve, however they are kept. -/
structure Node where
  stageOutputTtl : Nat := 0
  stageOutputs : List Output := []
  stageInserted : List (Scope × Nat) := []

namespace Node
variable (node : Node)

def expired (now : Nat) (key : Scope) : Bool :=
  node.stageInserted.any fun stamp => stamp.1 = key ∧ node.stageOutputTtl ≤ now - stamp.2

def noteStageOutputInsert (key : Scope) (now : Nat) : Node :=
  let node := {node with
    stageInserted := node.stageInserted.filter (fun stamp => stamp.1 ≠ key) ++ [(key,now)]}
  if node.stageOutputTtl = 0 then node
  else {node with
    stageInserted := node.stageInserted.filter fun stamp => !node.expired now stamp.1
    stageOutputs := node.stageOutputs.filter fun output => !node.expired now output.key}

def insertOutput (output : Output) : Node :=
  {node with stageOutputs :=
    node.stageOutputs.filter (fun (other : Output) => other.key ≠ output.key) ++ [output]}

def commit (output : Output) (now : Nat) : Node :=
  (node.insertOutput output).noteStageOutputInsert output.key now

def serve (stamps : List (Scope × Nat)) (partition : Nat) (output : Output) : Served where
  key := output.key
  stamp := stampOf stamps output.key
  schema := output.schema
  part := .ok (output.buckets[partition]?.getD [])

def readShuffle (stage partition : Nat) : Except Error (List RecordBatch) :=
  serveStage (node.stageOutputs.map (serve node.stageInserted partition)) stage partition

def pullBucket (stage bucket : Nat) : Except Error (List RecordBatch) :=
  (node.readShuffle stage bucket).map overFlight

lemma stampOf_filter (drop : Scope → Bool) (kept : drop key = false) :
    stampOf (stamps.filter fun stamp => !drop stamp.1) key = stampOf stamps key := by
  unfold stampOf
  rw [find?_filter]
  congr 2
  funext stamp
  by_cases same : stamp.1 = key
  · simp [same,kept]
  · simp [same]

lemma stampOf_note (stamps key other now) :
    stampOf (stamps.filter (fun stamp => stamp.1 ≠ key) ++ [(key,now)]) other =
      if other = key then some now else stampOf stamps other := by
  unfold stampOf
  rw [find?_append,find?_filter]
  by_cases same : other = key
  · subst same
    rw [find?_eq_none.mpr (by simp)]
    simp
  · rw [if_neg same]
    have only : (fun stamp : Scope × Nat => decide (decide (stamp.1 ≠ key) = true ∧
        decide (stamp.1 = other) = true)) = fun stamp => decide (stamp.1 = other) := by
      funext stamp
      by_cases here : stamp.1 = other
      · simp [here,same]
      · simp [here]
    rw [only]
    simp [Ne.symm same]

/-- The stamps that an insert leaves before anything expires. -/
def stamped (node : Node) (key : Scope) (now : Nat) : Node :=
  {node with stageInserted := node.stageInserted.filter (fun stamp => stamp.1 ≠ key) ++ [(key,now)]}

lemma expired_stamped (node : Node) (key other now) (limited : node.stageOutputTtl ≠ 0) :
    (node.stamped key now).expired now other = if other = key then false else node.expired now other := by
  unfold expired stamped
  rw [any_append,any_filter]
  by_cases same : other = key
  · subst same
    simp only [any_cons,any_nil,any_eq_false,if_true,Bool.or_eq_false_iff]
    refine ⟨fun stamp _ => ?_,?_,trivial⟩
    · by_cases here : stamp.1 = other
      · simp [here]
      · simp [here]
    · simp [limited]
  · rw [if_neg same]
    have new : [(key,now)].any (fun stamp => decide (stamp.1 = other ∧
        node.stageOutputTtl ≤ now - stamp.2)) = false := by
      simp [Ne.symm same]
    rw [new,Bool.or_false]
    congr 1
    funext stamp
    by_cases here : stamp.1 = other
    · simp [here,same]
    · simp [here]

lemma commit_ttl (node : Node) (output now) : (node.commit output now).stageOutputTtl = node.stageOutputTtl := by
  unfold commit noteStageOutputInsert
  simp only
  split <;> rfl

lemma commit_outputs (node : Node) (output now) :
    (node.commit output now).stageOutputs = node.stageOutputs.filter (fun other =>
      ¬(other.key = output.key ∨ node.stageOutputTtl ≠ 0 ∧ node.expired now other.key = true)) ++ [output] := by
  unfold commit noteStageOutputInsert
  simp only
  split
  · next forever =>
    change node.stageOutputTtl = 0 at forever
    change node.stageOutputs.filter _ ++ [output] = _
    simp [forever]
  · next limited =>
    change node.stageOutputTtl ≠ 0 at limited
    change List.filter (fun other => !((node.insertOutput output).stamped output.key now).expired now
      other.key) (node.stageOutputs.filter _ ++ [output]) = _
    have ages : ∀ other : Output, ((node.insertOutput output).stamped output.key now).expired now
        other.key = if other.key = output.key then false else node.expired now other.key :=
      fun other => expired_stamped (node.insertOutput output) output.key other.key now limited
    rw [filter_append,filter_filter]
    congr 1
    · apply filter_congr
      intro other _
      rw [ages other]
      by_cases same : other.key = output.key
      · simp [same]
      · simp [same,limited]
    · simp [ages output]

end Node

open Lib

/-- The SQL engine of the workers over their shards: what a producing task hashes, and what an
output task answers. -/
structure Engine where
  produce (stageSql : String) (hashKeyCols : List Nat) (numPartitions : Nat) (endpoint : String)
    (inputs : List (List RecordBatch)) : Except Error (Schema × List (List RecordBatch))
  answer (stageSql : String) (endpoint : String) (inputs : List (List RecordBatch)) :
    Except Error (List RecordBatch)

def mentions (text word : String) : Bool :=
  decide (word.toList <:+: text.toList.map Char.toLower)

def isRetryable (error : Error) : Bool :=
  let s := error.display
  if mentions s "connect worker" then true
  else if mentions s "transport" || mentions s "goaway" || mentions s "incomplete message" then true
  else if mentions s "deadline" || mentions s "timed out" || mentions s "timeout" then false
  else ["unavailable","connection","reset","broken pipe","health check failed","shuffle",
    "empty bucket","no task slots"].any (mentions s)

def needsUpstreamRecompute (error : Error) : Bool :=
  ["shuffle","empty bucket","no batches"].any (mentions error.display)

def taskMaxRetries : Nat := 3

/-- A task that runs on a worker, with the buckets it has pulled in the order of their arrival. -/
structure Attempt where
  run : StageRun
  endpoint : String
  pending : List Pull
  pulled : List (Pull × List RecordBatch) := []

def Attempt.stage (attempt : Attempt) : Nat := attempt.run.ticket.stageId

def Attempt.partition (attempt : Attempt) : Nat := attempt.run.ticket.partitionId

/-- `tried` holds the endpoints a task's attempts were sent to, `errors` how the failed ones ended.
-/
structure Driver where
  complete : List Nat := []
  coalesced : List (Nat × Nat) := []
  done : List (Nat × Nat) := []
  tried : List (Nat × Nat × String) := []
  errors : List (Nat × Nat × Error) := []
  running : List Attempt := []
  pulls : List (Pull × List RecordBatch) := []
  results : List (Nat × List RecordBatch) := []
  outcome : Option (Except Error (List RecordBatch)) := none

namespace Driver
variable (plan : QueryPlan) (driver : Driver)

def task (stage : StageDef) (partition : Nat) : Option StageRun :=
  match plan.tasks driver.coalesced stage with
  | .error _ => none
  | .ok tasks => tasks.find? fun run => run.ticket.partitionId = partition

def ready (stage : StageDef) : Bool :=
  decide (stage.stageId ∉ driver.complete) && stage.upstreamStageIds.all (· ∈ driver.complete)

def attempt (stage partition : Nat) : Option Attempt :=
  driver.running.find? fun attempt => attempt.stage = stage ∧ attempt.partition = partition

/-- `run_stage_inner_impl`: the owner first, once more after its upstreams could be read, then every
other worker once; an error that is not retryable ends the task. -/
def mayTry (run : StageRun) (endpoint : String) : Bool :=
  let (stage,partition) := (run.ticket.stageId,run.ticket.partitionId)
  let errors := (driver.errors.filter fun e => e.1 = stage ∧ e.2.1 = partition).map (·.2.2)
  let tries := driver.tried.countP fun t => t.1 = stage ∧ t.2.1 = partition ∧ t.2.2 = run.endpoint
  let recomputed := !run.ticket.upstreamStageIds.isEmpty && errors.head?.any needsUpstreamRecompute
  errors.all isRetryable && if tries < taskMaxRetries then decide (endpoint = run.endpoint)
    else if endpoint = run.endpoint then decide (tries = taskMaxRetries) && recomputed
    else decide (endpoint ∈ plan.cluster.workers) &&
      decide ((stage,partition,endpoint) ∉ driver.tried)

def launch (run : StageRun) (endpoint : String) : Driver := {driver with
  tried := driver.tried ++ [(run.ticket.stageId,run.ticket.partitionId,endpoint)]
  running := driver.running ++ [{run,endpoint,pending := run.ticket.pulls}]}

def dispatch (stage partition : Nat) (endpoint : String) : Driver :=
  match plan.stage stage with
  | none => driver
  | some stage => match driver.task plan stage partition with
    | none => driver
    | some run =>
      if driver.ready stage && (driver.attempt stage.stageId partition).isNone &&
        decide ((stage.stageId,partition) ∉ driver.done) && driver.mayTry plan run endpoint then
        driver.launch run endpoint
      else driver

def dropAttempt (stage partition : Nat) : Driver :=
  {driver with running := driver.running.filter fun attempt =>
    ¬(attempt.stage = stage ∧ attempt.partition = partition)}

def failAttempt (stage partition : Nat) (error : Error) : Driver :=
  {driver.dropAttempt stage partition with errors := (stage,partition,error)::driver.errors}

def take (attempt : Attempt) (index : Nat) (pull : Pull) (batches : List RecordBatch) : Driver :=
  let attempt := {attempt with
    pending := attempt.pending.eraseIdx index
    pulled := attempt.pulled ++ [(pull,batches)]}
  let driver := driver.dropAttempt attempt.stage attempt.partition
  {driver with running := driver.running ++ [attempt],pulls := driver.pulls ++ [(pull,batches)]}

def acknowledge (stage partition : Nat) : Driver :=
  {driver.dropAttempt stage partition with done := (stage,partition)::driver.done}

def answered (partition : Nat) (batches : List RecordBatch) : Driver :=
  {driver with results := (partition,batches)::driver.results}

def finished (stage : StageDef) : Bool :=
  match plan.tasks driver.coalesced stage with
  | .error _ => false
  | .ok tasks => tasks.all (fun run => (stage.stageId,run.ticket.partitionId) ∈ driver.done) &&
      driver.running.all fun attempt => attempt.stage ≠ stage.stageId

/-- The end of a stage; the driver may record a smaller number of readers for its consumers. -/
def barrier (stage : Nat) (modulus : Option Nat) : Driver :=
  match plan.stage stage with
  | none => driver
  | some stage =>
    if stage.stageId ≠ plan.output.stageId ∧ driver.ready stage ∧ driver.finished plan stage then
      {driver with
        complete := stage.stageId::driver.complete
        coalesced := match modulus.filter (· < plan.cluster.numPartitions) with
          | none => driver.coalesced
          | some m => (stage.stageId,m)::driver.coalesced}
    else driver

/-- The parts of the output in the order of their partitions, without the empty batches. -/
def merged : List RecordBatch :=
  let out := (driver.results.insertionSort fun first second => first.1 ≤ second.1).flatMap (·.2)
  let data := BucketCache.data out
  if data.isEmpty then out.take 1 else data

def unifySchema (batches : List RecordBatch) : List RecordBatch :=
  match batches with
  | [] => []
  | first::_ => if first.schema.isEmpty then batches
    else batches.filterMap (alignBatchSchema · first.schema)

def conclude : Driver :=
  if driver.outcome.isNone && driver.ready plan.output && driver.finished plan plan.output then
    {driver with outcome := some (.ok (unifySchema driver.merged))}
  else driver

def abort : Driver :=
  match driver.outcome,driver.errors with
  | none,(_,_,e)::_ => {driver with outcome := some (.error e)}
  | _,_ => driver

def lose (endpoint : String) : Driver := {driver with
  running := driver.running.filter fun attempt => attempt.endpoint ≠ endpoint
  errors := (driver.running.filter fun attempt => attempt.endpoint = endpoint).map (fun attempt =>
    (attempt.stage,attempt.partition,.execution "do_get: transport error")) ++ driver.errors}

end Driver

def Attempt.inputs (attempt : Attempt) : List (List RecordBatch) :=
  (List.range attempt.run.ticket.upstreamStageIds.length).map fun input =>
    assembleInput ((attempt.pulled.filter fun part => part.1.input = input).flatMap (·.2))

structure QueryState where
  driver : Driver := {}
  nodes : String → Node

inductive QueryEvent where
  | dispatch (stage partition : Nat) (endpoint : String)
  | pull (stage partition index : Nat)
  | finish (stage partition now : Nat)
  | barrier (stage : Nat) (modulus : Option Nat)
  | conclude
  | abort
  | restart (endpoint : String)

namespace QueryState
variable (plan : QueryPlan) (engine : Engine) (state : QueryState)

def drive (change : Driver → Driver) : QueryState := {state with driver := change state.driver}

def setNode (endpoint : String) (node : Node) : QueryState :=
  {state with nodes := Function.update state.nodes endpoint node}

def pull (stage partition index : Nat) : QueryState :=
  match state.driver.attempt stage partition with
  | none => state
  | some attempt => match attempt.pending[index]? with
    | none => state
    | some pull => match (state.nodes pull.endpoint).pullBucket pull.stage pull.bucket with
      | .error e => state.drive (·.failAttempt stage partition e)
      | .ok batches => state.drive (·.take attempt index pull batches)

/-- A producing task puts its buckets into the cache of its worker before it is acknowledged. -/
def finish (stage partition now : Nat) : QueryState :=
  match state.driver.attempt stage partition with
  | none => state
  | some attempt =>
    let ticket := attempt.run.ticket
    if !attempt.pending.isEmpty then state
    else if ticket.produce then
      match engine.produce ticket.stageSql ticket.hashKeyCols ticket.numPartitions attempt.endpoint
        attempt.inputs with
      | .error e => state.drive (·.failAttempt stage partition e)
      | .ok (schema,buckets) => (state.setNode attempt.endpoint ((state.nodes attempt.endpoint).commit
          ⟨⟨ticket.stageId,ticket.partitionId⟩,schema,buckets⟩ now)).drive (·.acknowledge stage partition)
    else match engine.answer ticket.stageSql attempt.endpoint attempt.inputs with
      | .error e => state.drive (·.failAttempt stage partition e)
      | .ok batches => state.drive fun driver => (driver.acknowledge stage partition).answered partition batches

def restart (endpoint : String) : QueryState :=
  (state.setNode endpoint {stageOutputTtl := (state.nodes endpoint).stageOutputTtl}).drive (·.lose endpoint)

def step (state : QueryState) : QueryEvent → QueryState
  | .dispatch stage partition endpoint => state.drive (·.dispatch plan stage partition endpoint)
  | .pull stage partition index => state.pull stage partition index
  | .finish stage partition now => state.finish engine stage partition now
  | .barrier stage modulus => state.drive (·.barrier plan stage modulus)
  | .conclude => state.drive (·.conclude plan)
  | .abort => state.drive Driver.abort
  | .restart endpoint => state.restart endpoint

end QueryState
end Oxidant.Shuffle
