import Oxidant.DedupRows
import Oxidant.RateReplay
import Oxidant.Streaming.Rules

/-! A micro-batch attempted twice: what the operators a failed attempt leaves behind make of
the same rows. -/
namespace Oxidant.RetriedBatch
open Lib Streaming Operators DedupState StreamingQueryManager DedupRows Act

section Operators
variable (config : QueryConfig) (operators : Operators) (batches : List RecordBatch)

def survives (claimed : Int) : Bool :=
  match config.watermark,(operators.observe config batches).tracker.maxEventTimeMicros with
  | some wm,some max => decide (wm.watermarkFor max ≤ claimed)
  | _,_ => true

def settled : Option Int → Option Int → Bool
  | some claimed,_ => survives config operators batches claimed
  | none,some claimed => !survives config operators batches claimed
  | none,none => true

/-- What makes a second pass over the same batches give the rows of the first. -/
def Repeatable : Prop :=
  match operators.dedup,operators.resolveKeys config batches with
  | some dedup,.ok keys =>
    let found := claims config.formatter keys (Operators.eventTimeCol config batches) batches
    keys = [] ∨ ¬Keyable config.formatter keys batches ∨ ∀ key ∈ found.map Prod.fst,
        settled config operators batches dedup.seen[key]? (found.lookup key) = true
  | _,_ => True

instance : Decidable (Repeatable config operators batches) := by
  unfold Repeatable
  split <;> infer_instance

variable (dedup : DedupState)

private lemma expire_seen (key : String) :
    ((operators.observe config batches).expire config dedup).seen[key]? =
      (dedup.seen[key]?).filter (survives config operators batches) := by
  unfold Operators.expire survives
  cases config.watermark with
  | none => cases dedup.seen[key]? <;> rfl
  | some wm =>
    cases (operators.observe config batches).tracker.maxEventTimeMicros with
    | none => cases dedup.seen[key]? <;> rfl
    | some max => simp [DedupState.expire]

private lemma settled_iff (seen claimed) (met : claimed.isSome) :
    ((seen.or claimed).filter (survives config operators batches)).isSome = seen.isSome ↔
      settled config operators batches seen claimed = true := by
  obtain ⟨first,rfl⟩ := Option.isSome_iff_exists.mp met
  cases seen with
  | none => simp [settled,Option.filter]
  | some before => simp [settled,Option.filter]

variable {config operators batches}

private lemma observe_again (dedup dedupKeyCols) :
    Operators.observe config ⟨(operators.observe config batches).tracker,dedup,dedupKeyCols⟩ batches =
      ⟨(operators.observe config batches).tracker,dedup,dedupKeyCols⟩ := by
  unfold Operators.observe
  cases config.watermark with
  | none => rfl
  | some wm =>
    dsimp only
    rw [WatermarkTracker.observe_observe]

private lemma resolveKeys_again (keys) (other : Operators)
    (resolved : operators.resolveKeys config batches = .ok keys)
    (kept : other.dedupKeyCols = keys) : other.resolveKeys config batches = .ok keys := by
  subst kept
  unfold Operators.resolveKeys at resolved ⊢
  cases same : other.dedupKeyCols with
  | cons key keys => rfl
  | nil =>
    rw [same] at resolved
    cases batches with
    | nil => rfl
    | cons batch batches =>
      cases before : operators.dedupKeyCols with
      | nil => simpa [before] using resolved
      | cons key keys => simp [before] at resolved

private lemma dedupEach_again (keys) (keyable : Keyable config.formatter keys batches) (eventTimeCol) :
    (dedupEach config.formatter keys eventTimeCol
        ((operators.observe config batches).expire config
            (dedupEach config.formatter keys eventTimeCol dedup batches).2) batches).1 =
      (dedupEach config.formatter keys eventTimeCol dedup batches).1 ↔
    ∀ key ∈ (claims config.formatter keys eventTimeCol batches).map Prod.fst, settled config operators batches
        dedup.seen[key]? ((claims config.formatter keys eventTimeCol batches).lookup key) = true := by
  let next := (dedupEach config.formatter keys eventTimeCol dedup batches).2
  have seen (key : String) : ((operators.observe config batches).expire config next).seen[key]? =
      ((dedup.seen[key]?).or ((claims config.formatter keys eventTimeCol batches).lookup key)).filter
        (survives config operators batches) := by
    rw [expire_seen,dedupEach_seen keyable]
  have agrees (key : String) (met : key ∈ (claims config.formatter keys eventTimeCol batches).map Prod.fst) :=
    settled_iff config operators batches dedup.seen[key]? _ ((lookup_isSome_iff _ _).mpr met)
  constructor
  · intro same key met
    rw [← agrees key met,← seen,← contains_eq_isSome,← contains_eq_isSome]
    have passed : (dedupEach config.formatter keys eventTimeCol dedup batches).1.isOk = true :=
      (dedupEach_isOk dedup batches).mpr keyable
    cases done : (dedupEach config.formatter keys eventTimeCol dedup batches).1 with
    | error e =>
      rw [done] at passed
      cases passed
    | ok out =>
      have first := mem_claims_dedupEach done key
      have second := mem_claims_dedupEach (same.trans done) key
      simp only [met,true_and] at first second
      rw [Bool.eq_iff_iff,← Bool.not_eq_false,← Bool.not_eq_false,← first,← second]
  · intro all
    apply dedupEach_congr
    intro key met
    rw [contains_eq_isSome,contains_eq_isSome,seen]
    exact (agrees key met).mpr (all key met)

private lemma apply_again (keys : List Nat) (resolved : operators.resolveKeys config batches = .ok keys) :
    (Operators.apply config ⟨(operators.observe config batches).tracker,some dedup,keys⟩ batches).1 =
      (dedup.dedupBatches config.formatter batches keys (Operators.eventTimeCol config batches)).1 := by
  unfold Operators.apply
  rw [observe_again,dropDuplicates_resolved dedup keys rfl (resolveKeys_again keys _ resolved rfl)]

lemma apply_again_iff :
    ((operators.apply config batches).2.apply config batches).1 = (operators.apply config batches).1 ↔
    Repeatable config operators batches := by
  unfold Repeatable
  have again : (operators.observe config batches).observe config batches =
      operators.observe config batches := observe_again _ _
  cases there : operators.dedup with
  | none => simp only [Operators.apply,Operators.dropDuplicates,observe_dedup,there,again]
  | some dedup =>
    cases resolved : operators.resolveKeys config batches with
    | error e =>
      simp only [Operators.apply,Operators.dropDuplicates,observe_dedup,there,observe_resolveKeys,resolved,again]
    | ok keys =>
      rw [apply_resolved dedup there resolved]
      rw [apply_again _ keys resolved]
      cases keys with
      | nil => simp [dedupBatches]
      | cons key keys =>
        simp only [dedupBatches,List.isEmpty_cons,Bool.false_eq_true,if_false,reduceCtorEq,false_or]
        by_cases keyable : Keyable config.formatter (key::keys) batches
        · rw [if_pos ((dedupEach_isOk dedup batches).mpr keyable),dedupEach_again dedup _ keyable]
          simp [keyable]
        · simp [keyable,dedupEach_unkeyable keyable _ dedup]

end Operators

section Attempt
variable (env : Environment σ χ) (config : QueryConfig)

def transformFails (sourceBatches : List RecordBatch) (choices : List (Choice χ)) : Bool :=
  config.pipeline && (choices.head?.bind (env.faultOf · (.executePlan sourceBatches))).isSome

def applied (batchId : Nat) (batches : List RecordBatch) : Method QueryRuntime Error Nat :=
  (do
    let rows ← applyOperators config batches
    checkExpectations batchId rows config.expectations
    return rows) >>= fun rows =>
  Act.withRetry isRetryable (retryAttempts - 1) (writeBatch rows batchId)

variable (batchId : Nat)

private lemma applied_ensures (batches rt world) :
    (applied config batchId batches).Ensures env.reply Anywhere
      (fun _ after _ => after.operators = (rt.operators.apply config batches).2) rt world := by
  unfold applied
  rw [ensures_bind,ensures_bind,applyOperators_ensures]
  cases (rt.operators.apply config batches).1 with
  | error e => rfl
  | ok rows =>
    dsimp only
    rw [ensures_bind]
    refine checkExpectations_ensures _ _ _ trivial fun result => ?_
    cases result with
    | error e => rfl
    | ok _ =>
      rw [ensures_pure]
      apply ensures_withRetry _ fun (after : QueryRuntime) _ =>
        after.operators = (rt.operators.apply config batches).2
      · intro after world same
        exact writeBatch_ensures _ _ trivial ⟨same,fun _ _ => same⟩
          fun _ => ⟨⟨same,fun _ _ => same⟩,same,fun _ _ => same⟩
      · rfl

private lemma applied_operators (batches choices rt after world final e)
    (failed : (applied config batchId batches rt).run env.reply choices world = (some (.error e,after),final)) :
    after.operators = (rt.operators.apply config batches).2 := by
  have done := Prog.run_ensures _ _ (applied_ensures env config batchId batches rt world) choices
  rw [failed] at done
  exact done

private lemma writeRows_direct (sourceBatches rt) (rows : totalRows sourceBatches ≠ 0)
    (direct : config.pipeline = false) :
    writeRows config batchId sourceBatches rt = applied config batchId sourceBatches rt := by
  unfold writeRows prepareRows transform
  rw [if_neg rows,if_neg (by simp [direct])]
  rfl

private lemma writeRows_planned (sourceBatches rt) (rows : totalRows sourceBatches ≠ 0)
    (planned : config.pipeline = true) :
    writeRows config batchId sourceBatches rt = .call (.executePlan sourceBatches) fun
      | .ok batches => applied config batchId batches rt
      | .error e => .done (.error e,rt) := by
  unfold writeRows prepareRows transform
  rw [if_neg rows,if_pos planned]
  apply congrArg (Prog.call _)
  funext answer
  cases answer <;> rfl

private lemma failed_operators (sourceBatches choices rt after world final e)
    (failed : (writeRows config batchId sourceBatches rt).run env.reply choices world =
        (some (.error e,after),final)) :
    after.operators =
      if transformFails env config sourceBatches choices then rt.operators
      else (rt.operators.apply config (handed env config sourceBatches)).2 := by
  by_cases empty : totalRows sourceBatches = 0
  · rw [writeRows,if_pos empty] at failed
    cases failed
  · unfold transformFails handed
    cases pipeline : config.pipeline with
    | false =>
      rw [writeRows_direct config batchId sourceBatches rt empty pipeline] at failed
      exact applied_operators env config batchId sourceBatches choices rt after world final e failed
    | true =>
      rw [writeRows_planned config batchId sourceBatches rt empty pipeline] at failed
      cases choices with
      | nil => cases failed
      | cons choice choices =>
        simp only [Prog.run,Environment.reply] at failed
        cases fault : env.faultOf choice (.executePlan sourceBatches) with
        | none =>
          rw [fault] at failed
          simpa [fault] using applied_operators env config batchId _ choices rt after _ final e failed
        | some met =>
          rw [fault] at failed
          cases failed
          simp [fault]

def rowsHanded (operators : Operators) (sourceBatches : List RecordBatch) : Except Error (List RecordBatch) :=
  (operators.apply config (handed env config sourceBatches)).1

end Attempt

/-- The attempt after a failed one hands the sink the same rows exactly when the failure was before
the operators, or the operators pass the same rows a second time. -/
theorem retry_hands_same_rows_iff {σ χ : Type} (env : Environment σ χ) (config : QueryConfig)
    (batchId : Nat) (sourceBatches : List RecordBatch) (choices : List (Choice χ))
    (rt after : QueryRuntime) (world final : World σ) (e : Error)
    (failed : (writeRows config batchId sourceBatches rt).run env.reply choices world =
      (some (.error e,after),final)) :
    rowsHanded env config after.operators sourceBatches = rowsHanded env config rt.operators sourceBatches ↔
      transformFails env config sourceBatches choices = true ∨
        Repeatable config rt.operators (handed env config sourceBatches) := by
  unfold rowsHanded
  rw [failed_operators env config batchId sourceBatches choices rt after world final e failed]
  cases transformFails env config sourceBatches choices with
  | true => simp
  | false => simp [apply_again_iff]

def refusingSink : Environment MemoryRateSource (Option Error) :=
  RateReplay.environment ⟨1,5⟩ fun
    | .writeBatch _ _ => true
    | _ => false

def firstBatch (seen : BTreeMap Int) : QueryRuntime where
  batchId := 0
  operators := {dedup := some ⟨seen⟩}

def refusedAttempt (seen : BTreeMap Int) : Option (Except Error Nat × QueryRuntime) × World MemoryRateSource :=
  (writeRows RateReplay.dedupById 1 (MemoryRateSource.generate ⟨1,5⟩) (firstBatch seen)).run
    refusingSink.reply (List.replicate retryAttempts ⟨some ⟨.io "503",false⟩,none⟩) {source := {}}

def left (seen : BTreeMap Int) : Operators := ⟨{},some ⟨seen⟩,[0]⟩

theorem duplicate_row_retried :
    rowsHanded refusingSink RateReplay.dedupById (left (MemoryRateSource.singleton "0" 7))
      (MemoryRateSource.generate ⟨1,5⟩) =
      rowsHanded refusingSink RateReplay.dedupById (firstBatch (MemoryRateSource.singleton "0" 7)).operators
        (MemoryRateSource.generate ⟨1,5⟩) :=
  (retry_hands_same_rows_iff refusingSink RateReplay.dedupById 1 (MemoryRateSource.generate ⟨1,5⟩) _
    (firstBatch (MemoryRateSource.singleton "0" 7))
    {firstBatch ∅ with operators := left (MemoryRateSource.singleton "0" 7)} {source := {}}
    (refusedAttempt (MemoryRateSource.singleton "0" 7)).2 (.io "503")
    (Prod.ext (by decide : (refusedAttempt (MemoryRateSource.singleton "0" 7)).1 = _) rfl)).mpr (by decide)

/-- A row a refused attempt was the first to see is dropped by the next one as its own
duplicate. -/
theorem refused_row_dropped :
    (refusedAttempt ∅).1 =
      some (.error (.io "503"), {firstBatch ∅ with operators := left (MemoryRateSource.singleton "0" I64.max)}) ∧
    rowsHanded refusingSink RateReplay.dedupById (firstBatch ∅).operators (MemoryRateSource.generate ⟨1,5⟩) =
      .ok (MemoryRateSource.generate ⟨1,5⟩) ∧
    rowsHanded refusingSink RateReplay.dedupById (left (MemoryRateSource.singleton "0" I64.max))
      (MemoryRateSource.generate ⟨1,5⟩) = .ok [] := by
  decide

end Oxidant.RetriedBatch
