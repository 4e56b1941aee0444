import Oxidant.Streaming.Rules

/-! A query's durable state as one journal: the ranges recorded, the commit positions, the sink and
the resume record, with what its process is at. Whatever the process does, in whatever order faults
and crashes put it, is a step of the journal. -/
namespace Oxidant.Streaming
open List

inductive Stage where
  | idle
  | polled (batches : List RecordBatch)
  | ready
  | committed (offsets : Option SourceOffsets)
  | saved
  /-- The call has ended, with the batch or without it. -/
  | ended

inductive Process where
  | down
  /-- The process is starting, and has found this many batches in the commit log. -/
  | starting (walked : Nat)
  /-- The query is up, and this many batches are behind it. -/
  | up (done : Nat) (stage : Stage)

inductive Phase where
  | starting
  | running
  deriving DecidableEq

structure Journal (σ : Type) where
  source : σ
  ranges : List BatchRange := []
  positions : List (Option SourceOffsets) := []
  held : List (Nat × List RecordBatch) := []
  recorded : Nat := 0
  resume : Option SourceOffsets := none
  process : Process := .down

namespace Journal
variable {σ χ : Type}

def put {α : Type} (list : List α) (place : Nat) (value : α) : List α :=
  list.take place ++ value::list.drop (place + 1)

lemma put_getElem? (inside : place ≤ list.length) (value index) :
    (put list place value)[index]? = if index = place then some value else list[index]? := by
  unfold put
  rcases Nat.lt_trichotomy index place with below | rfl | above
  · rw [getElem?_append_left (by rw [length_take]; omega),getElem?_take_of_lt below,if_neg (by omega)]
  · simp [inside]
  · rw [getElem?_append_right (by rw [length_take]; omega),if_neg (by omega),length_take,
      Nat.min_eq_left inside,show index - place = (index - place - 1) + 1 by omega,
      getElem?_cons_succ,getElem?_drop]
    congr 1
    omega

lemma put_length (inside : place ≤ list.length) (value) :
    (put list place value).length = max list.length (place + 1) := by
  simp [put]
  omega

def land (held : List (Nat × List RecordBatch)) (batchId : Nat) (rows : List RecordBatch) :
    List (Nat × List RecordBatch) :=
  (Sink.writeBatch {held} rows batchId).2.held

/-- What a query can hand to its sink for the batches polled. -/
def Prepares (env : Environment σ χ) (config : QueryConfig) (polled rows : List RecordBatch) : Prop :=
  ∃ operators after : Operators, operators.Fit config ∧
    operators.apply config (handed env config polled) = (.ok rows,after)

section Steps
variable (env : Environment σ χ) (config : QueryConfig)

/-- A write comes in two forms: one whose acknowledgement reaches the process, and one whose does
not. -/
inductive Step (journal : Journal σ) : Phase → Journal σ → Prop
  | crash (phase : Phase) : Step journal phase {journal with process := .down}
  | build (down : journal.process = .down) :
    Step journal .starting {journal with source := env.build journal.source,process := .starting 0}
  | recover {walked : Nat} (starting : journal.process = .starting walked) {offsets : SourceOffsets}
      (committed : journal.positions[journal.recorded]? = some (some offsets)) :
    Step journal .starting {journal with
      recorded := journal.recorded + 1
      resume := some offsets
      process := .starting (walked + 1)}
  | start {walked : Nat} (starting : journal.process = .starting walked)
      (walk : walked = StreamingQueryManager.maxRecovered ∨
        ∀ offsets, journal.positions[journal.recorded]? ≠ some (some offsets)) :
    Step journal .starting {journal with
      source := journal.resume.elim journal.source (env.source.restoreOffsets · journal.source)
      process := .up journal.recorded .idle}
  | abandon {done : Nat} {stage : Stage} (up : journal.process = .up done stage) :
    Step journal .running {journal with process := .up done .ended}
  | plan {done : Nat} (up : journal.process = .up done .idle) (last : journal.ranges.length ≤ done)
      (input : χ) :
    Step journal .running {journal with source := (env.source.planBatch input journal.source).2}
  | record {done : Nat} (up : journal.process = .up done .idle)
      (last : journal.ranges.length ≤ done) (input : χ) {range : BatchRange}
      (answer : (env.source.planBatch input journal.source).1 = .ok range)
      (some : range.isEmpty = false) :
    Step journal .running {journal with
      source := (env.source.planBatch input journal.source).2
      ranges := journal.ranges ++ [range]}
  | miss {done : Nat} (up : journal.process = .up done .idle) {range : BatchRange}
      (there : journal.ranges[done]? = some range) (input : χ) {error : Error}
      (answer : (env.source.pollRange input range journal.source).1 = .error error) :
    Step journal .running {journal with source := (env.source.pollRange input range journal.source).2}
  | poll {done : Nat} (up : journal.process = .up done .idle) {range : BatchRange}
      (there : journal.ranges[done]? = some range) (input : χ) {batches : List RecordBatch}
      (answer : (env.source.pollRange input range journal.source).1 = .ok batches) :
    Step journal .running {journal with
      source := (env.source.pollRange input range journal.source).2
      process := .up done (.polled batches)}
  | skip {done : Nat} {batches : List RecordBatch}
      (up : journal.process = .up done (.polled batches)) (none : totalRows batches = 0) :
    Step journal .running {journal with process := .up done .ready}
  | write {done : Nat} {batches rows : List RecordBatch}
      (up : journal.process = .up done (.polled batches)) (some : totalRows batches ≠ 0)
      (prepares : Prepares env config batches rows) (acknowledged : Bool) :
    Step journal .running {journal with
      held := land journal.held (done + 1) rows
      process := .up done (if acknowledged then .ready else .polled batches)}
  | commit {done : Nat} (up : journal.process = .up done .ready) (acknowledged : Bool) :
    Step journal .running {journal with
      positions := put journal.positions done (env.source.committedOffsets journal.source)
      process := if acknowledged
        then .up (done + 1) (.committed (env.source.committedOffsets journal.source))
        else .up done .ended}
  | save {done : Nat} {offsets : Option SourceOffsets}
      (up : journal.process = .up done (.committed offsets)) (acknowledged : Bool) :
    Step journal .running {journal with
      recorded := done
      resume := offsets
      process := .up done (if acknowledged then .saved else .ended)}
  | durable {done : Nat} (up : journal.process = .up done .saved) (input : χ) :
    Step journal .running {journal with
      source := (env.source.markDurable input journal.source).2
      process := .up done .ended}

/-- The operators of the running query, and those that the resume record gives a restarted one. -/
structure Carried where
  operators : Operators
  saved : Operators

def pass (batches : List RecordBatch) (operators : Operators) : Operators :=
  if totalRows batches = 0 then operators
  else (operators.apply config (handed env config batches)).2

def Saves (before after : Carried) : Prop :=
  ∃ batchId offsets pruned record,
    after = {before with saved := (StreamingQueryManager.resume config (StreamingQueryManager.nextCheckpoint
      config batchId offsets before.operators pruned record)).operators}

/-- What a step does to the operators. An attempt that ends early may have changed them; a save ends
early only where saves can fail. -/
def Carries (recorded recorded' : Nat) : Process → Process → Carried → Carried → Prop
  | .starting _,.up _ .idle,before,after => after = ⟨before.saved,before.saved⟩
  | .up _ (.polled batches),.up _ .ready,before,after =>
    after = {before with operators := pass env config batches before.operators}
  | .up _ (.committed _),.up _ .saved,before,after => Saves config before after
  | .up _ (.committed _),.up done .ended,before,after =>
    (∃ state, env.mayFail (.putOffsets state) = true) ∧
      (after = before ∧ recorded' = recorded ∨ Saves config before after ∧ recorded' = done)
  | .up _ (.polled _),.up _ .ended,before,after => after.saved = before.saved
  | _,_,before,after => after = before

def Moves (phase : Phase) (before after : Journal σ × Carried) : Prop :=
  Step env config before.1 phase after.1 ∧
    Carries env config before.1.recorded after.1.recorded before.1.process after.1.process before.2 after.2

end Steps

lemma carries_down {recorded recorded' : Nat} (process before after) :
    Carries env config recorded recorded' process .down before after ↔ after = before := by
  cases process with
  | up _ stage => cases stage <;> rfl
  | _ => rfl

def rest (journal : Journal σ) : Journal σ :=
  {journal with process := match journal.process with
    | .up done _ => .up done .idle
    | process => process}

def Stage.Fits (journal : Journal σ) (done : Nat) : Stage → Prop
  | .idle | .ended => True
  | .polled _ | .ready => done < journal.ranges.length
  | .committed offsets => 0 < done ∧ journal.positions[done - 1]? = some offsets
  | .saved => 0 < done ∧ journal.recorded = done

/-- The ids run through the journal without a gap, and at most one batch is not committed. -/
structure Sound (journal : Journal σ) : Prop where
  planned : journal.positions.length ≤ journal.ranges.length
  oneAhead : journal.ranges.length ≤ journal.positions.length + 1
  recorded : journal.recorded ≤ journal.positions.length
  resume : journal.recorded = 0 ∧ journal.resume = none ∨
    0 < journal.recorded ∧ journal.positions[journal.recorded - 1]? = some journal.resume
  held : ∀ item ∈ journal.held, 0 < item.1 ∧ item.1 ≤ journal.ranges.length
  up : ∀ done stage, journal.process = .up done stage →
    journal.recorded ≤ done ∧ done ≤ journal.positions.length ∧ Stage.Fits journal done stage

lemma mem_land {held : List (Nat × List RecordBatch)} (mem : item ∈ land held batchId rows) :
    item ∈ held ∨ item = (batchId,rows) := by
  unfold land Sink.writeBatch at mem
  split at mem
  · exact .inl mem
  · simpa using mem

namespace Sound
variable {env : Environment σ χ} {config : QueryConfig} {journal after : Journal σ}

lemma moved (sound : Sound journal) (source : σ) (process) (up : ∀ done stage, process = .up done stage →
      journal.recorded ≤ done ∧ done ≤ journal.positions.length ∧ Stage.Fits journal done stage) :
    Sound {journal with source,process} where
  planned := sound.planned
  oneAhead := sound.oneAhead
  recorded := sound.recorded
  resume := sound.resume
  held := sound.held
  up done stage here := by
    obtain ⟨low,high,fits⟩ := up done stage here
    exact ⟨low,high,by cases stage <;> exact fits⟩

lemma ended (sound : Sound journal) (source : σ) (up : journal.process = .up done stage) :
    Sound {journal with source,process := .up done .ended} := by
  refine sound.moved source _ fun other stage same => ?_
  cases same
  obtain ⟨low,high,_⟩ := sound.up done _ up
  exact ⟨low,high,trivial⟩

lemma rest (sound : Sound journal) : Sound journal.rest := by
  refine sound.moved journal.source _ fun done stage here => ?_
  cases process : journal.process with
  | up number stage' =>
    rw [process] at here
    cases here
    obtain ⟨low,high,_⟩ := sound.up _ _ process
    exact ⟨low,high,trivial⟩
  | down =>
    rw [process] at here
    cases here
  | starting =>
    rw [process] at here
    cases here

lemma sourced (sound : Sound journal) (source : σ) : Sound {journal with source} :=
  sound.moved source journal.process sound.up

lemma step (step : Step env config journal phase after) (sound : Sound journal) :
    Sound after := by
  cases step with
  | crash => exact sound.moved journal.source .down fun _ _ none => by cases none
  | build => exact sound.moved _ (.starting 0) fun _ _ none => by cases none
  | recover starting committed =>
    have inside := (List.getElem?_eq_some_iff.mp committed).1
    exact ⟨sound.planned,sound.oneAhead,inside,.inr ⟨Nat.succ_pos _,committed⟩,sound.held,
      nofun⟩
  | start starting =>
    refine sound.moved _ _ fun done stage same => ?_
    cases same
    exact ⟨le_rfl,sound.recorded,trivial⟩
  | abandon up => exact sound.ended journal.source up
  | plan => exact sound.sourced _
  | record up last =>
    obtain ⟨_,high,_⟩ := sound.up _ _ up
    have planned := sound.planned
    refine ⟨?_,?_,sound.recorded,sound.resume,fun item mem => ?_,fun done stage here => ?_⟩
    · simp
      omega
    · simp
      omega
    · have := sound.held item mem
      simp
      omega
    · rw [show journal.process = _ from here] at up
      cases up
      exact ⟨(sound.up _ _ here).1,high,trivial⟩
  | miss => exact sound.sourced _
  | poll up there =>
    refine sound.moved _ _ fun done stage same => ?_
    cases same
    obtain ⟨low,high,_⟩ := sound.up _ _ up
    exact ⟨low,high,(List.getElem?_eq_some_iff.mp there).1⟩
  | skip up =>
    obtain ⟨low,high,fits⟩ := sound.up _ _ up
    refine sound.moved journal.source _ fun done stage same => ?_
    cases same
    exact ⟨low,high,fits⟩
  | write up _ _ acknowledged =>
    obtain ⟨low,high,fits⟩ := sound.up _ _ up
    refine ⟨sound.planned,sound.oneAhead,sound.recorded,sound.resume,fun item mem => ?_,
      fun done stage same => ?_⟩
    · rcases mem_land mem with old | rfl
      · exact sound.held item old
      · exact ⟨Nat.succ_pos _,fits⟩
    · cases acknowledged <;> cases same <;> exact ⟨low,high,fits⟩
  | commit up acknowledged =>
    obtain ⟨low,high,fits⟩ := sound.up _ _ up
    have fits : _ < journal.ranges.length := fits
    have planned := sound.planned
    have oneAhead := sound.oneAhead
    have length := put_length high (env.source.committedOffsets journal.source)
    refine ⟨?_,?_,?_,?_,sound.held,fun done stage same => ?_⟩
    · dsimp only
      omega
    · dsimp only
      omega
    · dsimp only
      omega
    · refine sound.resume.imp id fun ⟨later,there⟩ => ⟨later,?_⟩
      dsimp only
      rw [put_getElem? high,if_neg (by omega)]
      exact there
    · dsimp only
      cases acknowledged with
      | true =>
        cases same
        refine ⟨Nat.le_succ_of_le low,by omega,Nat.succ_pos _,?_⟩
        rw [put_getElem? high]
        simp
      | false =>
        cases same
        exact ⟨low,by omega,trivial⟩
  | save up acknowledged =>
    obtain ⟨low,high,some,there⟩ := sound.up _ _ up
    refine ⟨sound.planned,sound.oneAhead,high,.inr ⟨some,there⟩,sound.held,fun done stage same => ?_⟩
    cases acknowledged with
    | true =>
      cases same
      exact ⟨le_rfl,high,some,rfl⟩
    | false =>
      cases same
      exact ⟨le_rfl,high,trivial⟩
  | durable up => exact sound.ended _ up

end Sound

end Journal
end Oxidant.Streaming
