import Oxidant.Lib.Steps
import Oxidant.Streaming.Rules

/-! The drain of what is available now: batches until the source stands at the boundary that was
fixed when the drain began, or until one of them has no rows. -/
namespace Oxidant.Streaming
open Lib StreamingQueryManager CheckpointStore Act

structure Round (χ : Type) where
  input : χ
  choices : List (Choice χ)

inductive DrainStatus where
  | draining | returned | failed (error : Error) | died
  deriving DecidableEq

structure Drain (σ : Type) where
  total : Nat := 0
  batches : Nat := 0
  boundary : Option (BTreeMap Int) := none
  runtime : QueryRuntime
  world : World σ
  status : DrainStatus := .draining

namespace Drain
variable (env : Environment σ χ) (availableEnd : χ → σ → Except Error (Option (BTreeMap Int)) × σ)
  (config : QueryConfig)

def maxDrainBatches : Nat := 100000

def reachedBoundary (drain : Drain σ) : Bool :=
  match drain.boundary,env.source.committedOffsets drain.world.source with
  | some boundary,some position => boundary.toList.all fun (key,stop) =>
    match position.entries[key]? with
    | some current => decide (stop ≤ current)
    | none => false
  | _,_ => false

def fixBoundary (input : χ) (drain : Drain σ) : Drain σ :=
  if drain.boundary.isSome then drain
  else match availableEnd input drain.world.source with
    | (.error e,source) => {drain with world.source := source,status := .failed e}
    | (.ok boundary,source) => {drain with world.source := source,boundary}

def runOne (choices : List (Choice χ)) (drain : Drain σ) : Drain σ :=
  match (runBatch config drain.runtime).run env.reply choices drain.world with
  | (none,world) => {drain with world,status := .died}
  | (some (.error e,runtime),world) => {drain with runtime,world,status := .failed e}
  | (some (.ok rows,runtime),world) =>
    let next := {drain with runtime,world,total := drain.total + rows,batches := drain.batches + 1}
    if rows = 0 ∨ next.reachedBoundary env then {next with status := .returned} else next

/-- One pass of the loop. A drain that is stopped, or out of batches, stays as it is. -/
def step (drain : Drain σ) (round : Round χ) : Drain σ :=
  if drain.status ≠ .draining ∨ maxDrainBatches ≤ drain.batches then drain
  else
    let fixed := drain.fixBoundary availableEnd round.input
    if fixed.status ≠ .draining then fixed else fixed.runOne env config round.choices

/-- What a drain that returned has come to: its boundary, or a plan with nothing in it. -/
def Settled (drain : Drain σ) : Prop :=
  drain.status = .returned → drain.reachedBoundary env = true ∨ drain.runtime.isDataAvailable = false

/-- What a call comes to in the end, made again after each error. -/
inductive Attempts (call : χ → σ → Except Error α × σ) : σ → α → σ → Prop
  | done (input : χ) (answer : call input state = (.ok value,after)) : Attempts call state value after
  | again (input : χ) (answer : call input state = (.error error,between))
      (rest : Attempts call between value after) : Attempts call state value after

/-- What the next batch may read of the source, and where it leaves it: the range recorded for the batch
or, without one, a range that the source plans. -/
def Reads (source : Source σ χ) (entry : Option BatchRange) (state : σ) (batches : List RecordBatch) (after : σ) :
    Prop :=
  match entry with
  | some range => Attempts (source.pollRange · range) state batches after
  | none => ∃ range between, range.isEmpty = false ∧ Attempts source.planBatch state range between ∧
      Attempts (source.pollRange · range) between batches after

/-- The query was not stopped, and wherever the source can be read next without any records, it comes
to the boundary by that. -/
def Stocked (drain : Drain σ) (round : Round χ) : Prop :=
  let fixed := drain.fixBoundary availableEnd round.input
  drain.runtime.isActive = true ∧ ∀ batches after input,
    Reads env.source (fixed.world.disk.planned (fixed.runtime.batchId + 1)) fixed.world.source batches after →
      totalRows batches = 0 →
      ({fixed with world.source := (env.source.markDurable input after).2} : Drain σ).reachedBoundary env = true

section Batches
variable {env config} {rt : QueryRuntime} {world : World σ}

lemma withRetry_attempts {method : Method QueryRuntime Error α} (call : χ → σ → Except Error α × σ) (retries : Nat)
    (calls : ∀ {post : Except Error α → QueryRuntime → World σ → Prop} {world : World σ},
      (∀ input, post (call input world.source).1 rt {world with source := (call input world.source).2}) →
        method.Ensures env.reply Anywhere post rt world) :
    (Act.withRetry isRetryable retries method).Ensures env.reply Anywhere (fun result after final =>
        after = rt ∧ ∀ value, result = .ok value → Attempts call world.source value final.source) rt world := by
  -- An attempt from where the failed ones left the source is one from where they began.
  refine ensures_withRetry isRetryable (fun after final => after = rt ∧
    ∀ value last, Attempts call final.source value last → Attempts call world.source value last)
    ?_ _ rt world ⟨rfl,fun _ _ => id⟩
  rintro _ between ⟨rfl,back⟩
  refine calls fun input => ⟨⟨rfl,fun value same => back _ _ (.done input (Prod.ext same rfl))⟩,fun e same => ⟨rfl,?_⟩⟩
  exact fun value last rest => back _ _ (.again input (Prod.ext same rfl) rest)

lemma obtainRange_reads (batchId : Nat) :
    (obtainRange config batchId).Ensures env.reply Anywhere (fun result after final => match result with
      | .error _ => True
      | .ok none => after.isDataAvailable = false
      | .ok (some range) => ∀ batches last, Attempts (env.source.pollRange · range) final.source batches last →
          Reads env.source (world.disk.planned batchId) world.source batches last) rt world := by
  unfold obtainRange
  rw [ensures_bind,ensures_mapError]
  refine loadPlanned_ensures _ trivial ?_ fun _ _ => trivial
  dsimp only [Except.mapError]
  cases found : world.disk.planned batchId with
  | some range => exact fun batches last polled => polled
  | none =>
    apply ensures_step (withRetry_attempts env.source.planBatch _ fun answered => planBatch_ensures trivial answered)
    · exact fun _ _ _ _ => trivial
    · rintro range after final ⟨rfl,planned⟩
      split
      · rfl
      · next present =>
        rw [ensures_bind,ensures_mapError]
        refine savePlanned_ensures _ trivial ?_ fun _ _ => ⟨trivial,trivial⟩
        exact fun batches last polled => ⟨range,_,by simpa using present,planned range rfl,polled⟩

lemma saveCheckpoint_source (batchId : Nat) (offsets : Option SourceOffsets) :
    (saveCheckpoint config batchId offsets).Ensures env.reply Anywhere
      (fun _ _ final => final.source = world.source) rt world := by
  have loaded : loadOrDefault.Ensures env.reply Anywhere
      (fun (_ : Except Error CheckpointState) _ final => final.source = world.source) rt world :=
    loadOrDefault_ensures trivial rfl fun _ => rfl
  unfold saveCheckpoint
  apply ensures_step loaded
  · exact fun _ _ _ same => same
  · intro checkpoint after loaded same
    rw [ensures_get_bind]
    apply ensures_step (pruneLog_ensures (fun final => final.source = world.source) (fun _ _ => trivial)
      (fun _ _ kept _ _ => ⟨kept,kept⟩) same)
    · exact fun _ _ _ kept => kept.2.1
    · rintro pruned after final ⟨rfl,kept,_⟩
      rw [ensures_mapError]
      exact save_ensures trivial kept fun _ _ => ⟨kept,kept⟩

lemma commitBatch_source (batchId rows : Nat) :
    (commitBatch config batchId rows).Ensures env.reply Anywhere (fun _ _ final => final.source = world.source)
      rt world := by
  unfold commitBatch
  rw [ensures_bind,ensures_request]
  refine ⟨trivial,fun _ => ?_⟩
  dsimp only
  rw [ensures_bind,ensures_mapError]
  exact saveCommit_ensures trivial rfl fun _ _ => ⟨rfl,rfl⟩

/-- A batch without rows, if not for an empty plan, has read a range without records, and has left the
source where the mark after that read does. -/
lemma runBatch_reads (active : rt.isActive = true) :
    (runBatch config).Ensures env.reply Anywhere (fun result after final => result = .ok 0 →
      after.isDataAvailable = true → ∃ batches read input,
        Reads env.source (world.disk.planned (rt.batchId + 1)) world.source batches read ∧
        totalRows batches = 0 ∧ final.source = (env.source.markDurable input read).2) rt world := by
  unfold runBatch
  rw [ensures_get_bind,if_pos active]
  unfold runBatchInner
  rw [ensures_get_bind]
  apply ensures_step (obtainRange_reads _)
  · exact fun _ _ _ _ => nofun
  rintro (_ | range) after planned reads
  · intro _ available
    cases reads.symm.trans available
  apply ensures_step (withRetry_attempts (env.source.pollRange · range) _ fun answered =>
    pollRange_ensures _ trivial answered)
  · exact fun _ _ _ _ => nofun
  rintro batches after polled ⟨rfl,attempts⟩
  have read := reads _ _ (attempts _ rfl)
  by_cases none : totalRows batches = 0
  · rw [writeRows,if_pos none]
    apply ensures_step (commitBatch_source _ _)
    · exact fun _ _ _ _ => nofun
    intro offsets after committed kept
    apply ensures_step (saveCheckpoint_source _ _)
    · exact fun _ _ _ _ => nofun
    intro _ after saved same
    rw [ensures_bind]
    refine markDurable_ensures trivial fun input => ?_
    cases (env.source.markDurable input saved.source).1 with
    | error e => exact nofun
    | ok _ => exact fun _ _ => ⟨batches,_,input,read,none,by rw [same,kept]⟩
  · refine ensures_mono ?_ fun result _ _ (some_ : ∀ out, result = .ok out → out ≠ 0) same => absurd rfl (some_ 0 same)
    refine ensures_last (fun _ => ensures_last fun _ => ensures_last fun _ => ensures_last fun _ _ _ => ?_) _ _
    rintro _ ⟨⟩
    exact none

end Batches

section Rounds
variable {env availableEnd config} {drain : Drain σ}

lemma runOne_settled (open_ : drain.status = .draining) (active : drain.runtime.isActive = true)
    (stocked : ∀ batches after input,
      Reads env.source (drain.world.disk.planned (drain.runtime.batchId + 1)) drain.world.source batches after →
        totalRows batches = 0 →
        ({drain with world.source := (env.source.markDurable input after).2} : Drain σ).reachedBoundary env = true) :
    (drain.runOne env config choices).Settled env := by
  have ensures : (runBatch config).Ensures env.reply Anywhere _ drain.runtime drain.world := runBatch_reads active
  have ensured := Prog.run_ensures _ _ ensures choices
  unfold runOne
  split
  · exact fun stopped => nomatch stopped
  · exact fun stopped => nomatch stopped
  · next rows runtime world ran =>
    rw [ran] at ensured
    dsimp only
    split
    · next ended =>
      intro _
      by_cases reached : ({drain with runtime,world} : Drain σ).reachedBoundary env = true
      · exact .inl reached
      · obtain rfl : rows = 0 := ended.resolve_right reached
        right
        cases available : runtime.isDataAvailable with
        | false => rfl
        | true =>
          obtain ⟨batches,read,input,reads,none,source⟩ := ensured rfl available
          refine absurd ?_ reached
          unfold reachedBoundary
          rw [source]
          exact stocked batches read input reads none
    · intro stopped
      rw [open_] at stopped
      cases stopped

lemma step_settled {round} (settled : drain.Settled env) (stocked : drain.Stocked env availableEnd round) :
    (drain.step env availableEnd config round).Settled env := by
  unfold step
  split
  · exact settled
  · next going =>
    dsimp only
    split
    · next ended =>
      intro stopped
      unfold fixBoundary at stopped ended
      split at stopped
      · simp_all
      · split at stopped <;> simp_all
    · next fixed =>
      have runtime : (drain.fixBoundary availableEnd round.input).runtime = drain.runtime := by
        unfold fixBoundary
        split
        · rfl
        · split <;> rfl
      exact runOne_settled (not_not.mp fixed) (runtime ▸ stocked.1) stocked.2

/-- A drain that returns has come to its boundary or found nothing to plan, as long as what each of its
passes can read short of the boundary has a record in it. -/
theorem drain_reaches_boundary (draining : drain.status = .draining) (rounds : List (Round χ))
    (met : Steps.Meets (step env availableEnd config) (Stocked env availableEnd) drain rounds) :
    (Steps.run (step env availableEnd config) drain rounds).Settled env := by
  apply Steps.run_invariant _ _ (Settled env) (fun _ _ kept stocked => step_settled kept stocked) _ _ met
  intro stopped
  rw [draining] at stopped
  cases stopped

end Rounds

namespace Sample

def at_ (index : Int) : BTreeMap Int := (∅ : BTreeMap Int).insert "file" index

def spool (files : List (List String)) : Source Nat Unit where
  planBatch := fun _ next => if next < files.length
    then (.ok {source := "kafka-spool",start := at_ next,«end» := at_ (next + 1)},next)
    else (.ok {},next)
  pollRange := fun _ range _ =>
    let file := (range.start["file"]?.getD 0).toNat
    (.ok [⟨[⟨"value",.utf8⟩],(files[file]?.getD []).map fun line => [some (.text line)]⟩],file + 1)
  committedOffsets := fun next => some ⟨"kafka-spool",at_ next⟩
  restoreOffsets := fun offsets _ => (offsets.entries["file"]?.getD 0).toNat

def spooled (files : List (List String)) : Environment Nat Unit where
  source := spool files
  build := fun _ => 0
  mayFail := fun _ => false

def spoolEnd (files : List (List String)) (_ : Unit) (next : Nat) :
    Except Error (Option (BTreeMap Int)) × Nat := (.ok (some (at_ files.length)),next)

def once : QueryConfig := ⟨"checkpoint",false,none,[],[],fun _ => .ok fun _ => ""⟩

def begun : Drain Nat := {runtime := {batchId := 0,operators := {}},world := {source := 0}}

def quiet : Round Unit := ⟨(),List.replicate 16 ⟨none,()⟩⟩

def drained (first : List String) : Drain Nat :=
  Steps.run (step (spooled [first,["a"]]) (spoolEnd [first,["a"]]) once) begun [quiet,quiet]

lemma spool_reads {batches : List RecordBatch} (full : [] ∉ files)
    (reads : Reads (spool files) none next batches after) :
    totalRows batches ≠ 0 := by
  obtain ⟨range,between,present,planned,polled⟩ := reads
  obtain ⟨below,rfl⟩ : next < files.length ∧ range = ⟨"kafka-spool",at_ next,at_ (next + 1),[]⟩ := by
    cases planned with
    | done _ answer =>
      simp only [spool] at answer
      split at answer <;> cases answer
      · next below => exact ⟨below,rfl⟩
      · cases present
    | again _ answer _ =>
      simp only [spool] at answer
      split at answer <;> cases answer
  cases polled with
  | again _ answer _ => cases answer
  | done _ answer =>
    cases answer
    have file : ((at_ next)["file"]?.getD 0).toNat = next := by simp [at_]
    simp only [totalRows,RecordBatch.numRows,file,List.getElem?_eq_getElem below,Option.getD_some,List.map_cons,
      List.map_nil,List.sum_cons,List.sum_nil,List.length_map,Nat.add_zero,ne_eq,List.length_eq_zero_iff]
    exact fun blank => full (blank ▸ List.getElem_mem below)

theorem two_files_drained : (drained ["b"]).status = .returned ∧ (drained ["b"]).Settled (spooled [["b"],["a"]]) := by
  have full : [] ∉ [["b"],["a"]] := by decide
  refine ⟨by decide,drain_reaches_boundary rfl [quiet,quiet] ⟨⟨rfl,?_⟩,⟨rfl,?_⟩,trivial⟩⟩
  · exact fun batches after input reads none => absurd none (spool_reads full reads)
  · exact fun batches after input reads none => absurd none (spool_reads full reads)

/-- A blank file ends the drain before the file that follows it. -/
theorem blank_file_ends_drain :
    (drained []).status = .returned ∧ (drained []).world.source = 1 ∧
    ¬ (drained []).Settled (spooled [[],["a"]]) := by
  refine ⟨by decide,by decide,fun settled => ?_⟩
  rcases settled (by decide) with reached | idle
  · exact absurd reached (by decide)
  · exact absurd idle (by decide)

end Sample
end Drain
end Oxidant.Streaming
