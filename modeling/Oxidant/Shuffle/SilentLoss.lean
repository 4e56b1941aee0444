import Oxidant.Lib.Traverse
import Oxidant.Shuffle.Query

/-! When a query loses no shuffle data without an error: whatever a worker loses, by a restart or by
the age of its entries, belongs to stages whose consumers are all complete. -/
namespace Oxidant.Shuffle
open Lib List
open Streaming (RecordBatch)

def QueryPlan.spent (plan : QueryPlan) (complete : List Nat) (stage : Nat) : Bool :=
  (plan.output::plan.stages).all fun consumer =>
    decide (stage ∉ consumer.upstreamStageIds) || decide (consumer.stageId ∈ complete)

namespace QueryState
variable (plan : QueryPlan) (engine : Engine)

def new (ttl : Nat) : QueryState := {nodes := fun _ => {stageOutputTtl := ttl}}

def withoutLoss : QueryEvent → List QueryEvent
  | .restart _ => []
  | event => [event]

/-- The query ends as it would without the losses or with an error, and every pull is answered as
it would be. -/
def NoSilentLoss (ttl : Nat) (events : List QueryEvent) : Prop :=
  let lossy := Steps.run (step plan engine) (new ttl) events
  let calm := Steps.run (step plan engine) (new 0) (events.flatMap withoutLoss)
  (∀ result, lossy.driver.outcome = some (.ok result) →
    calm.driver.outcome = some (.ok result)) ∧ lossy.driver.pulls = calm.driver.pulls

def Harmless (state : QueryState) : QueryEvent → Prop
  | .restart endpoint => (∀ attempt ∈ state.driver.running, attempt.endpoint ≠ endpoint) ∧
      ∀ output ∈ (state.nodes endpoint).stageOutputs, plan.spent state.driver.complete output.key.stage = true
  | .finish stage partition now => ∀ attempt ∈ (state.driver.attempt stage partition).toList,
      (state.nodes attempt.endpoint).stageOutputTtl ≠ 0 → ∀ output ∈ (state.nodes attempt.endpoint).stageOutputs,
          (state.nodes attempt.endpoint).expired now output.key = true →
            plan.spent state.driver.complete output.key.stage = true
  | _ => True

instance (state : QueryState) : ∀ event, Decidable (state.Harmless plan event)
  | .restart _ => inferInstanceAs (Decidable (_ ∧ _))
  | .finish _ _ _ => inferInstanceAs (Decidable (∀ _ ∈ _, _))
  | .dispatch _ _ _ => .isTrue trivial
  | .pull _ _ _ => .isTrue trivial
  | .barrier _ _ => .isTrue trivial
  | .conclude => .isTrue trivial
  | .abort => .isTrue trivial

end QueryState

structure Node.Alike (keep : Nat → Bool) (lossy calm : Node) : Prop where
  outputs : lossy.stageOutputs.filter (fun output => keep output.key.stage) =
    calm.stageOutputs.filter fun output => keep output.key.stage
  stamps : ∀ output ∈ lossy.stageOutputs, keep output.key.stage = true →
    stampOf lossy.stageInserted output.key = stampOf calm.stageInserted output.key

namespace Node
section
variable (alike : Alike keep lossy calm)
include alike

lemma Alike.readShuffle (kept : keep stage = true) (partition) :
    lossy.readShuffle stage partition = calm.readShuffle stage partition := by
  have only : ∀ outputs : List Output, outputs.filter (fun output => output.key.stage = stage) =
      (outputs.filter fun output => keep output.key.stage).filter fun output => output.key.stage = stage := by
    intro outputs
    rw [filter_filter]
    apply filter_congr
    intro output _
    by_cases same : output.key.stage = stage
    · simp [same,kept]
    · simp [same]
  have entries : (lossy.stageOutputs.map (serve lossy.stageInserted partition)).filter
        (fun entry => entry.key.stage = stage) =
      (calm.stageOutputs.map (serve calm.stageInserted partition)).filter fun entry => entry.key.stage = stage := by
    rw [filter_map,filter_map]
    change (lossy.stageOutputs.filter fun output => output.key.stage = stage).map _ =
      (calm.stageOutputs.filter fun output => output.key.stage = stage).map _
    rw [only calm.stageOutputs,← alike.outputs,← only lossy.stageOutputs]
    apply map_congr_left
    intro output mem
    obtain ⟨there,here⟩ := mem_filter.mp mem
    unfold serve
    rw [alike.stamps output there (by rw [of_decide_eq_true here]; exact kept)]
  unfold Node.readShuffle serveStage
  rw [entries]

lemma Alike.mono (less : ∀ stage, fewer stage = true → keep stage = true) : Alike fewer lossy calm := by
  have only : ∀ outputs : List Output, outputs.filter (fun output => fewer output.key.stage) =
      (outputs.filter fun output => keep output.key.stage).filter fun output => fewer output.key.stage := by
    intro outputs
    rw [filter_filter]
    apply filter_congr
    intro output _
    cases kept : fewer output.key.stage with
    | false => rfl
    | true => simp [less _ kept]
  refine ⟨?_,fun output mem kept => alike.stamps output mem (less _ kept)⟩
  rw [only lossy.stageOutputs,alike.outputs,← only]

lemma Alike.insert (output now) :
    Alike keep ((lossy.insertOutput output).stamped output.key now)
      ((calm.insertOutput output).stamped output.key now) := by
  constructor
  · change (List.filter _ (List.filter _ lossy.stageOutputs ++ [output])) =
      List.filter _ (List.filter _ calm.stageOutputs ++ [output])
    rw [filter_append,filter_append,filter_filter,filter_filter]
    simp only [Bool.and_comm (keep _)]
    rw [← filter_filter,← filter_filter,alike.outputs]
  · intro other mem kept
    change stampOf (_ ++ [(output.key,now)]) other.key = stampOf (_ ++ [(output.key,now)]) other.key
    rw [stampOf_note,stampOf_note]
    split
    · rfl
    · next apart =>
      rcases mem_append.mp mem with old | new
      · exact alike.stamps other (mem_of_mem_filter old) kept
      · cases mem_singleton.mp new
        exact absurd rfl apart

lemma Alike.commit (forever : calm.stageOutputTtl = 0) (output now)
    (harmless : lossy.stageOutputTtl ≠ 0 → ∀ other ∈ lossy.stageOutputs,
      lossy.expired now other.key = true → keep other.key.stage = false) :
    Alike keep (lossy.commit output now) (calm.commit output now) := by
  have inserted := alike.insert output now
  have stays : calm.commit output now = (calm.insertOutput output).stamped output.key now := by
    exact if_pos forever
  rw [stays]
  unfold Node.commit Node.noteStageOutputInsert
  simp only
  split
  · exact inserted
  · next limited =>
    have spares : ∀ other ∈ ((lossy.insertOutput output).stamped output.key now).stageOutputs,
        keep other.key.stage = true →
        ((lossy.insertOutput output).stamped output.key now).expired now other.key = false := by
      intro other mem kept
      rw [expired_stamped _ _ _ _ limited]
      split
      · rfl
      · next apart =>
        rcases mem_append.mp mem with old | new
        · by_contra aged
          have spent := harmless limited other (mem_of_mem_filter old) (Bool.not_eq_false _ ▸ aged)
          rw [kept] at spent
          cases spent
        · cases mem_singleton.mp new
          exact absurd rfl apart
    constructor
    · rw [← inserted.outputs]
      rw [filter_filter]
      apply filter_congr
      intro other mem
      cases kept : keep other.key.stage with
      | false => rfl
      | true =>
        rw [Bool.true_and,Bool.not_eq_true']
        exact spares other mem kept
    · intro other mem kept
      have there := mem_of_mem_filter mem
      refine (stampOf_filter _ ?_).trans (inserted.stamps other there kept)
      exact spares other there kept

end

end Node

namespace QueryPlan
variable {plan : QueryPlan} {stage : StageDef}

def Made (stage : StageDef) (run : StageRun) : Prop :=
  run.ticket.stageId = stage.stageId ∧ run.ticket.upstreamStageIds = stage.upstreamStageIds

lemma partitionTasks_made (tasks : plan.partitionTasks stage numTasks produce = .ok runs)
    (mem : run ∈ runs) : Made stage run := by
  obtain ⟨p,_,made⟩ := mem_of_mapM_eq_ok tasks mem
  cases owner : plan.cluster.ownerEndpoint p with
  | error e => simp [owner,bind,Except.bind] at made
  | ok endpoint =>
    simp only [owner,bind,Except.bind,pure,Except.pure,Except.ok.injEq] at made
    subst made
    exact ⟨rfl,rfl⟩

lemma stageTasks_made (tasks : plan.stageTasks coalesced stage = .ok runs) (mem : run ∈ runs) : Made stage run := by
  unfold stageTasks at tasks
  split at tasks
  · exact partitionTasks_made tasks mem
  · split at tasks
    · cases tasks
    · cases tasks
      obtain ⟨_,_,rfl⟩ := mem_map.mp mem
      exact ⟨rfl,rfl⟩

lemma outputTasks_made (tasks : plan.outputTasks coalesced = .ok runs) (mem : run ∈ runs) :
    Made plan.output run := by
  unfold outputTasks at tasks
  split at tasks
  · split at tasks
    · cases tasks
    · cases tasks
      cases mem_singleton.mp mem
      exact ⟨rfl,rfl⟩
  · split at tasks
    · cases tasks
      obtain ⟨_,_,rfl⟩ := mem_map.mp mem
      exact ⟨rfl,rfl⟩
    · exact partitionTasks_made tasks mem

lemma tasks_made (tasks : plan.tasks coalesced stage = .ok runs) (mem : run ∈ runs) (among : stage ∈ plan.stages) :
    ∃ consumer ∈ plan.output::plan.stages, consumer.stageId = stage.stageId ∧ Made consumer run := by
  unfold QueryPlan.tasks at tasks
  split at tasks
  · next same => exact ⟨plan.output,mem_cons_self,same.symm,outputTasks_made tasks mem⟩
  · exact ⟨stage,mem_cons_of_mem _ among,rfl,stageTasks_made tasks mem⟩

lemma spent_of_waiting (mem : consumer ∈ plan.output::plan.stages)
    (waits : consumer.stageId ∉ complete) (reads : upstream ∈ consumer.upstreamStageIds) :
    plan.spent complete upstream = false := by
  unfold spent
  rw [all_eq_false]
  exact ⟨consumer,mem,by simp [waits,reads]⟩

end QueryPlan

lemma StageTicket.pulls_stage {ticket : StageTicket} (mem : pull ∈ ticket.pulls) :
    pull.stage ∈ ticket.upstreamStageIds := by
  unfold StageTicket.pulls at mem
  simp only [mem_flatMap,mem_map] at mem
  obtain ⟨⟨stage,input⟩,among,bucket,_,endpoint,_,rfl⟩ := mem
  exact fst_mem_of_mem_zipIdx among

namespace QueryState
/-- What runs belongs to a stage that is not complete, and waits for buckets of its upstreams. -/
def Current (plan : QueryPlan) (driver : Driver) : Prop :=
  ∀ attempt ∈ driver.running, attempt.stage ∉ driver.complete ∧
    ∀ pull ∈ attempt.pending, ∃ consumer ∈ plan.output::plan.stages,
      consumer.stageId = attempt.stage ∧ pull.stage ∈ consumer.upstreamStageIds

/-- The driver is where it would be without the losses, and so are the entries still to be read. -/
structure Agree (plan : QueryPlan) (lossy calm : QueryState) : Prop where
  driver : lossy.driver = calm.driver
  current : Current plan lossy.driver
  forever : ∀ endpoint, (calm.nodes endpoint).stageOutputTtl = 0
  nodes : ∀ endpoint, (lossy.nodes endpoint).Alike
    (fun stage => !plan.spent lossy.driver.complete stage) (calm.nodes endpoint)

lemma Agree.drive (agree : Agree plan lossy calm) (change) (current : Current plan (change lossy.driver))
    (grows : ∀ stage, stage ∈ lossy.driver.complete → stage ∈ (change lossy.driver).complete) :
    Agree plan (lossy.drive change) (calm.drive change) := by
  refine ⟨congrArg change agree.driver,current,agree.forever,fun endpoint => ?_⟩
  apply (agree.nodes endpoint).mono
  intro stage unspent
  simp only [QueryPlan.spent,Bool.not_eq_true',all_eq_false] at unspent ⊢
  obtain ⟨consumer,mem,waits⟩ := unspent
  refine ⟨consumer,mem,fun spent => waits ?_⟩
  rw [Bool.or_eq_true,decide_eq_true_iff,decide_eq_true_iff] at spent ⊢
  exact spent.imp id (grows _)

lemma Current.filter {driver : Driver} (current : Current plan driver) (keep) :
    Current plan {driver with running := driver.running.filter keep} :=
  fun attempt mem => current attempt (mem_of_mem_filter mem)

lemma Current.dispatch {driver : Driver} (current : Current plan driver) (stage partition endpoint) :
    Current plan (driver.dispatch plan stage partition endpoint) := by
  unfold Driver.dispatch
  split
  · exact current
  · next found there =>
    split
    · exact current
    · next run made =>
      split
      · next may =>
        simp only [Bool.and_eq_true] at may
        obtain ⟨⟨⟨ready,_⟩,_⟩,_⟩ := may
        obtain ⟨waits,_⟩ := (Bool.and_eq_true _ _).mp ready
        unfold Driver.task at made
        split at made
        · cases made
        · next runs tasks =>
          obtain ⟨consumer,mem,same,ids,ups⟩ := QueryPlan.tasks_made tasks
            (mem_of_find?_eq_some made) (mem_of_find?_eq_some there)
          intro attempt among
          rcases mem_append.mp among with old | new
          · exact current attempt old
          · cases mem_singleton.mp new
            refine ⟨?_,fun pull pulls => ⟨consumer,mem,ids.symm,?_⟩⟩
            · change run.ticket.stageId ∉ driver.complete
              rw [ids,same]
              exact of_decide_eq_true waits
            · exact ups ▸ StageTicket.pulls_stage pulls
      · exact current

lemma Current.take {driver : Driver} (current : Current plan driver)
    (mem : attempt ∈ driver.running) (index pull batches) :
    Current plan (driver.take attempt index pull batches) := by
  intro other among
  rcases mem_append.mp among with old | new
  · exact current other (mem_of_mem_filter old)
  · cases mem_singleton.mp new
    obtain ⟨waits,pulls⟩ := current attempt mem
    exact ⟨waits,fun pull there => pulls pull (mem_of_mem_eraseIdx there)⟩

lemma Current.barrier {driver : Driver} (current : Current plan driver) (stage modulus) :
    Current plan (driver.barrier plan stage modulus) := by
  unfold Driver.barrier
  split
  · exact current
  · next found there =>
    split
    · next may =>
      obtain ⟨_,_,finished⟩ := may
      unfold Driver.finished at finished
      split at finished
      · cases finished
      · rw [Bool.and_eq_true,all_eq_true,all_eq_true] at finished
        intro attempt mem
        obtain ⟨waits,pulls⟩ := current attempt mem
        refine ⟨fun completed => ?_,pulls⟩
        rcases mem_cons.mp completed with same | old
        · exact of_decide_eq_true (finished.2 attempt mem) same
        · exact waits old
    · exact current

lemma barrier_grows (driver : Driver) (id)
    (mem : id ∈ driver.complete) : id ∈ (driver.barrier plan stage modulus).complete := by
  unfold Driver.barrier
  split
  · exact mem
  · split
    · exact mem_cons_of_mem _ mem
    · exact mem

lemma attempt_mem {driver : Driver} {stage partition : Nat}
    (found : driver.attempt stage partition = some attempt) : attempt ∈ driver.running :=
  mem_of_find?_eq_some found

section
variable (agree : Agree plan lossy calm)
include agree

lemma Agree.pull (stage partition index : Nat) :
    Agree plan (lossy.pull stage partition index) (calm.pull stage partition index) := by
  unfold QueryState.pull
  rw [← agree.driver]
  cases found : lossy.driver.attempt stage partition with
  | none => exact agree
  | some attempt =>
    have running := attempt_mem found
    obtain ⟨waits,pulls⟩ := agree.current attempt running
    cases awaited : attempt.pending[index]? with
    | none => simpa only [awaited] using agree
    | some pull =>
      obtain ⟨consumer,mem,same,reads⟩ := pulls pull (mem_of_getElem? awaited)
      have unspent := QueryPlan.spent_of_waiting mem (same ▸ waits) reads
      have answer : (calm.nodes pull.endpoint).pullBucket pull.stage pull.bucket =
          (lossy.nodes pull.endpoint).pullBucket pull.stage pull.bucket := by
        unfold Node.pullBucket
        rw [(agree.nodes pull.endpoint).readShuffle (by rw [unspent]; rfl)]
      simp only [awaited,answer]
      cases (lossy.nodes pull.endpoint).pullBucket pull.stage pull.bucket with
      | error e => exact agree.drive _ (agree.current.filter _) fun _ mem => mem
      | ok batches => exact agree.drive _ (agree.current.take running index pull batches) fun _ mem => mem

lemma Agree.commit (endpoint output now)
    (harmless : (lossy.nodes endpoint).stageOutputTtl ≠ 0 →
      ∀ other ∈ (lossy.nodes endpoint).stageOutputs, (lossy.nodes endpoint).expired now other.key = true →
        plan.spent lossy.driver.complete other.key.stage = true) :
    Agree plan (lossy.setNode endpoint ((lossy.nodes endpoint).commit output now))
      (calm.setNode endpoint ((calm.nodes endpoint).commit output now)) := by
  refine ⟨agree.driver,agree.current,fun other => ?_,fun other => ?_⟩
  · by_cases same : other = endpoint
    · subst same
      simp only [setNode,Function.update_self,Node.commit_ttl]
      exact agree.forever other
    · simp only [setNode,Function.update_of_ne same]
      exact agree.forever other
  · by_cases same : other = endpoint
    · subst same
      simp only [setNode,Function.update_self]
      refine (agree.nodes other).commit (agree.forever other) output now fun limited old mem aged => ?_
      rw [harmless limited old mem aged]
      rfl
    · simp only [setNode,Function.update_of_ne same]
      exact agree.nodes other

lemma Agree.finish (stage partition now : Nat) (harmless : lossy.Harmless plan (.finish stage partition now)) :
    Agree plan (lossy.finish engine stage partition now) (calm.finish engine stage partition now) := by
  unfold QueryState.finish
  rw [← agree.driver]
  cases found : lossy.driver.attempt stage partition with
  | none => exact agree
  | some attempt =>
    have spares := harmless attempt (by simp [found])
    simp only
    split
    · exact agree
    · split
      · split
        · exact agree.drive _ (agree.current.filter _) fun _ mem => mem
        · exact (agree.commit attempt.endpoint _ now spares).drive _ (agree.current.filter _) fun _ mem => mem
      · split
        · exact agree.drive _ (agree.current.filter _) fun _ mem => mem
        · exact agree.drive _ (agree.current.filter _) fun _ mem => mem

lemma Agree.restart (endpoint) (harmless : lossy.Harmless plan (.restart endpoint)) :
    Agree plan (lossy.restart endpoint) calm := by
  obtain ⟨idle,spent⟩ := harmless
  have unmoved : lossy.driver.lose endpoint = lossy.driver := by
    have none : lossy.driver.running.filter (fun attempt => attempt.endpoint = endpoint) = [] := by
      rw [filter_eq_nil_iff]
      exact fun attempt mem => by simpa using idle attempt mem
    have all : lossy.driver.running.filter (fun attempt => attempt.endpoint ≠ endpoint) = lossy.driver.running := by
      rw [filter_eq_self]
      exact fun attempt mem => by simpa using idle attempt mem
    unfold Driver.lose
    rw [none,all]
    rfl
  have driver : (lossy.restart endpoint).driver = lossy.driver := unmoved
  refine ⟨driver.trans agree.driver,driver ▸ agree.current,agree.forever,fun other => ?_⟩
  by_cases same : other = endpoint
  · subst same
    have none : (calm.nodes other).stageOutputs.filter (fun output =>
        !plan.spent lossy.driver.complete output.key.stage) = [] := by
      rw [← (agree.nodes other).outputs,filter_eq_nil_iff]
      intro output mem
      simp [spent output mem]
    change Node.Alike _ (Function.update lossy.nodes other _ other) _
    rw [Function.update_self]
    exact ⟨none.symm,nofun⟩
  · change Node.Alike _ (Function.update lossy.nodes endpoint _ other) _
    rw [Function.update_of_ne same]
    exact agree.nodes other

lemma Agree.step (event : QueryEvent) (harmless : lossy.Harmless plan event) :
    Agree plan (lossy.step plan engine event)
      (Steps.run (QueryState.step plan engine) calm (withoutLoss event)) := by
  cases event with
  | dispatch stage partition endpoint =>
    refine agree.drive (·.dispatch plan stage partition endpoint)
      (agree.current.dispatch stage partition endpoint) fun id mem => ?_
    unfold Driver.dispatch
    split
    · exact mem
    · split
      · exact mem
      · split <;> exact mem
  | pull stage partition index => exact agree.pull stage partition index
  | finish stage partition now => exact agree.finish stage partition now harmless
  | barrier stage modulus =>
    exact agree.drive (·.barrier plan stage modulus) (agree.current.barrier stage modulus) (barrier_grows _)
  | conclude =>
    refine agree.drive (·.conclude plan) ?_ fun id mem => ?_
    · unfold Driver.conclude
      split <;> exact agree.current
    · unfold Driver.conclude
      split <;> exact mem
  | abort =>
    refine agree.drive Driver.abort ?_ fun id mem => ?_
    · unfold Driver.abort
      split <;> exact agree.current
    · unfold Driver.abort
      split <;> exact mem
  | restart endpoint => exact agree.restart endpoint harmless

end

lemma new_agree : Agree plan (new ttl) (new 0) := by
  refine ⟨rfl,fun _ mem => ?_,fun _ => rfl,fun _ => ⟨rfl,fun _ mem => ?_⟩⟩
  · cases mem
  · cases mem

/-- In every run in which only entries of spent stages are lost, nothing is lost in silence. -/
theorem no_silent_loss (plan : QueryPlan) (engine : Engine) (ttl : Nat) (events : List QueryEvent)
    (harmless : Steps.Meets (step plan engine) (Harmless plan) (new ttl) events) :
    NoSilentLoss plan engine ttl events := by
  have agree := Steps.run_simulation (step plan engine) (step plan engine) withoutLoss (Agree plan)
    (fun _ _ event agree harmless => agree.step event harmless)
    (new ttl) (new 0) events harmless (new_agree)
  unfold NoSilentLoss
  simp only [agree.driver]
  exact ⟨fun _ => id,trivial⟩

namespace Sample

def row (value : Int) : RecordBatch := {schema := [⟨"v",.int64⟩],rows := [[some (.int value)]]}

def scanner : Engine where
  produce sql _ _ endpoint inputs := .ok ([⟨"v",.int64⟩],
    [if sql = "scan" then [row (if endpoint = "a:1" then 7 else 8)] else inputs.flatten])
  answer _ _ inputs := .ok inputs.flatten

def scan : StageDef := {stageId := 0,sql := "scan",hashKeyCols := [0]}

def short : QueryPlan where
  cluster := {workers := ["a:1","b:1"],numPartitions := 1}
  stages := [scan,{stageId := 1,upstreamStageIds := [0]}]
  output := {stageId := 1,upstreamStageIds := [0]}

def long : QueryPlan where
  cluster := {workers := ["a:1","b:1"],numPartitions := 1}
  stages := [scan,{stageId := 1,upstreamStageIds := [0],hashKeyCols := [0]},{stageId := 2,upstreamStageIds := [1]}]
  output := {stageId := 2,upstreamStageIds := [1]}

def scanning : List QueryEvent :=
  [.dispatch 0 0 "a:1",.dispatch 0 1 "b:1",.finish 0 0 0,.finish 0 1 0,.barrier 0 none]

def reading (stage : Nat) : List QueryEvent :=
  [.dispatch stage 0 "a:1",.pull stage 0 0,.pull stage 0 0,.finish stage 0 0]

def late : List QueryEvent :=
  scanning ++ reading 1 ++ [.barrier 1 none,.restart "b:1"] ++ reading 2 ++ [.conclude]

theorem late_loses_nothing :
    Steps.Meets (step long scanner) (Harmless long) (new 0) late ∧ NoSilentLoss long scanner 0 late :=
  have harmless : Steps.Meets (step long scanner) (Harmless long) (new 0) late := by decide +kernel
  ⟨harmless,no_silent_loss long scanner 0 late harmless⟩

def early : List QueryEvent := scanning ++ [.restart "b:1"] ++ reading 1 ++ [.conclude]

theorem early_loses_rows : ¬NoSilentLoss short scanner 0 early := by
  intro kept
  have ended : (Steps.run (step short scanner) (new 0) early).driver.outcome = some (.ok [row 7]) := by
    decide +kernel
  have calm : (Steps.run (step short scanner) (new 0) (early.flatMap withoutLoss)).driver.outcome =
      some (.ok [row 7,row 8]) := by
    decide +kernel
  have same := kept.1 _ ended
  rw [calm] at same
  simp [row] at same

end Sample
end QueryState
end Oxidant.Shuffle
