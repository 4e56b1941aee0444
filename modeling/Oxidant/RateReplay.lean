import Oxidant.Semantics.Replay

/-! The rate source is replayable: a range is one step of its counter. -/
namespace Oxidant.RateReplay
open Streaming Semantics MemoryRateSource

variable (config : RateConfig)

abbrev idle (range : BatchRange) : Prop := range.source ≠ "rate" ∨ range.isEmpty

def advance (position : SourceOffsets) (range : BatchRange) : SourceOffsets :=
  if idle range then position
  else offsets ⟨BitVec.ofInt 64 (range.end["batch"]?.getD 0)⟩

def records (range : BatchRange) : List RecordBatch :=
  if idle range then [] else generate config

private lemma singleton_entry : (singleton key value)[key]? = some value := by simp [MemoryRateSource.singleton]

lemma restored_offsets (reached state : MemoryRateSource) :
    (restoreOffsets reached.offsets state).offsets = reached.offsets := by
  have entry : reached.offsets.entries["batch"]? = some reached.batchCount.toInt :=
    singleton_entry
  exact congrArg (fun count => offsets ⟨count⟩) BitVec.ofInt_toInt

lemma pollRange_offsets (failure) :
    (pollRange config failure range state).2.offsets = advance state.offsets range := by
  unfold pollRange advance
  split <;> rfl

def replayable : Replayable (MemoryRateSource.source config) (fun _ => {}) where
  position := offsets
  initial := offsets {}
  records := records config
  startsAt := fun range position => range.start = position.entries
  advance := advance
  committed := fun _ => rfl
  built := fun _ => rfl
  restored := fun reached _ => restored_offsets reached {}
  plan_position := by
    intro input state
    change (planBatch config input state).2.offsets = _
    unfold planBatch
    split <;> rfl
  plan_starts := by
    intro input state range planned present
    change (planBatch config input state).1 = _ at planned
    unfold planBatch at planned
    split at planned
    · cases planned
      exact absurd present (by decide)
    · cases planned
      rfl
  poll_records := by
    intro failure range state batches answer
    change (pollRange config failure range state).1 = _ at answer
    unfold pollRange at answer
    unfold records
    split at answer
    · next none =>
      cases answer
      rw [if_pos none]
    · next some =>
      rw [if_neg some]
      cases failure <;> cases answer
      rfl
  poll_position := fun failure range state _ _ => pollRange_offsets config failure
  poll_failed := fun failure range state _ _ => .inr (pollRange_offsets config failure)
  advance_again := by
    intro position range
    unfold advance
    split <;> rfl
  durable_position := fun _ _ => rfl

def environment (mayFail : Request → Bool) : Environment MemoryRateSource (Option Error) where
  source := MemoryRateSource.source config
  build := fun _ => {}
  mayFail := mayFail

def quiet (count : Nat) : List (Choice (Option Error)) := List.replicate count {input := none}

def passThrough : QueryConfig where
  location := "checkpoint"
  formatter := fun _ => .ok fun _ => ""

def dedupById : QueryConfig where
  location := "checkpoint"
  dedupColumns := ["id"]
  formatter := fun _ => .ok fun
    | .text value => value
    | .int value => toString value

end Oxidant.RateReplay
