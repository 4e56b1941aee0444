import Mathlib.Logic.Function.Basic
import Oxidant.Lib.Steps
import Oxidant.Streaming.Source

/-! The file sink: a file for every batch that has rows, named by a counter of the instance, in a
directory that outlives the instances. -/
namespace Oxidant.Streaming
open Lib

/-- What a file of the sink holds; `torn` is what a write that failed may leave. -/
inductive FileContents where
  | json (lines : String)
  | parquet (batches : List RecordBatch)
  | torn
  deriving DecidableEq

abbrev Directory := String → Option FileContents

structure FileSink where
  format : String
  batchCounter : Nat := 0

namespace FileSink
variable (formatCell : RecordBatch → Nat → Nat → String)

def new (format : String) : FileSink := {format := String.ofList (format.toList.map Char.toLower)}

def fileName (self : FileSink) : String :=
  let digits := Nat.toDigits 10 self.batchCounter
  "part-" ++ String.ofList (List.replicate (5 - digits.length) '0' ++ digits) ++
    if self.format = "json" then ".json" else ".parquet"

def lines (batches : List RecordBatch) : String :=
  String.join (batches.flatMap fun batch => (List.range batch.numRows).map fun row =>
    ",".intercalate ((List.range batch.schema.length).map (formatCell batch · row)) ++ "\n")

def contents (batches : List RecordBatch) (self : FileSink) : FileContents :=
  if self.format = "json" then .json (lines formatCell batches) else .parquet batches

def writeBatch (batches : List RecordBatch) (fault : Option (String × Option FileContents))
    (self : FileSink) (dir : Directory) : Except Error Nat × FileSink × Directory :=
  if totalRows batches = 0 then (.ok 0,self,dir)
  else
    let self := {self with batchCounter := (self.batchCounter + 1) % 2^64}
    match fault with
    | none => (.ok (totalRows batches),self,
        Function.update dir self.fileName (some (self.contents formatCell batches)))
    | some (message,left) => (.error (.execution message),self,
        Function.update dir self.fileName (left.or (dir self.fileName)))

/-- A directory, the sink that writes to it, and the batches with rows for which `Ok` was returned,
each with the sink as its write left it. -/
structure World where
  dir : Directory
  sink : Option FileSink := none
  accepted : List (FileSink × List RecordBatch) := []

inductive Event where
  | new (format : String)
  | writeBatch (batches : List RecordBatch) (fault : Option (String × Option FileContents))

def step (world : World) : Event → World
  | .new format => {world with sink := some (new format)}
  | .writeBatch batches fault =>
    match world.sink with
    | none => world
    | some sink => match writeBatch formatCell batches fault sink world.dir with
      | (.ok (_+1),sink,dir) => ⟨dir,some sink,(sink,batches)::world.accepted⟩
      | (_,sink,dir) => {world with dir,sink := some sink}

def Kept (world : World) : Prop :=
  ∀ entry ∈ world.accepted, world.dir entry.1.fileName = some (entry.1.contents formatCell entry.2)

/-- A sink is created where no part file of its format is, and writes fewer than 2^64 files. -/
def Fresh (world : World) : Event → Prop
  | .new format => ∀ number, world.dir {new format with batchCounter := number}.fileName = none
  | .writeBatch .. => ∀ sink ∈ world.sink, sink.batchCounter + 1 < 2^64

lemma fileName_inj {format : String}
    (same : fileName ⟨format,number⟩ = fileName ⟨format,other⟩) : number = other := by
  have texts := String.ofList_injective ((String.append_right_inj _).mp ((String.append_left_inj _).mp same))
  have value (n : Nat) : Nat.ofDigitChars 10
      (List.replicate (5 - (Nat.toDigits 10 n).length) '0' ++ Nat.toDigits 10 n) 0 = n := by
    rw [Nat.ofDigitChars_append]
    have zeros (count : Nat) : Nat.ofDigitChars 10 (List.replicate count '0') 0 = 0 := by
      induction count with
      | zero => rfl
      | succ count ih => exact ih
    rw [zeros,Nat.ofDigitChars_ten_toDigits]
  rw [← value number,texts,value]

/-- No file is where a later write of the sink goes. -/
structure Ahead (world : World) : Prop where
  kept : Kept formatCell world
  clear : ∀ sink ∈ world.sink, ∀ number, sink.batchCounter < number →
    world.dir {sink with batchCounter := number}.fileName = none

variable {formatCell}

lemma Ahead.write (ahead : Ahead formatCell world) (current : sink ∈ world.sink) (contents)
    (counted : next = {sink with batchCounter := sink.batchCounter + 1}) :
    Ahead formatCell {world with
      dir := Function.update world.dir next.fileName contents,sink := some next} := by
  subst counted
  constructor
  · intro entry listed
    have held := ahead.kept entry listed
    dsimp only
    rw [Function.update_of_ne,held]
    intro same
    rw [same,ahead.clear sink current _ (Nat.lt_succ_self _)] at held
    cases held
  · intro next is_ number later
    cases is_
    dsimp only at later ⊢
    rw [Function.update_of_ne]
    · exact ahead.clear sink current number (Nat.lt_of_succ_lt later)
    · intro same
      exact absurd (fileName_inj same) (Nat.ne_of_gt later)

lemma Ahead.step (event : Event) (ahead : Ahead formatCell world) (fresh : Fresh world event) :
    Ahead formatCell (step formatCell world event) := by
  cases event with
  | new format =>
    refine ⟨ahead.kept,?_⟩
    intro sink is_ number _
    cases is_
    exact fresh number
  | writeBatch batches fault =>
    unfold FileSink.step
    cases is_ : world.sink with
    | none => exact ahead
    | some sink =>
      have counted : {sink with batchCounter := (sink.batchCounter + 1) % 2^64} =
          {sink with batchCounter := sink.batchCounter + 1} := by
        rw [Nat.mod_eq_of_lt (fresh sink is_)]
      unfold FileSink.writeBatch
      by_cases empty : totalRows batches = 0
      · simp only [if_pos empty,← is_]
        exact ahead
      · simp only [if_neg empty]
        match fault with
        | none =>
          have wrote := fun contents => ahead.write is_ contents counted
          obtain ⟨rows,positive⟩ := Nat.exists_eq_succ_of_ne_zero empty
          simp only [positive]
          refine ⟨?_,(wrote _).clear⟩
          intro entry listed
          cases listed with
          | head => exact Function.update_self ..
          | tail _ old => exact (wrote _).kept entry old
        | some _ => exact ahead.write is_ _ counted

end FileSink

open FileSink in
/-- In every run whose sinks are created where no part file is, what was accepted is kept. -/
theorem accepted_batches_kept (dir : Directory) (events : List Event)
    (fresh : Steps.Meets (step formatCell) Fresh {dir} events) :
    Kept formatCell (Steps.run (step formatCell) {dir} events) := by
  apply FileSink.Ahead.kept
  apply Steps.run_invariant _ Fresh _ (fun _ event => Ahead.step event) _ _ fresh
  exact ⟨nofun,nofun⟩

namespace Sample
open FileSink

def oneRow (value : Int) : List RecordBatch := [⟨[⟨"id",.int64⟩],[[some (.int value)]]⟩]

def sinkRun (events : List Event) : World :=
  Steps.run (step fun _ _ _ => "") {dir := fun _ => none} events

theorem two_batches_kept :
    Kept (fun _ _ _ => "") (sinkRun [.new "csv",.writeBatch (oneRow 1) none,.writeBatch (oneRow 2) none]) := by
  apply accepted_batches_kept
  refine ⟨fun _ => rfl,?_,?_,trivial⟩ <;> rintro _ ⟨⟩ <;> decide

/-- The second sink begins to count anew and writes over the first one's file. -/
theorem restarted_sink_overwrites :
    ¬ Kept (fun _ _ _ => "")
      (sinkRun [.new "csv",.writeBatch (oneRow 1) none,.new "csv",.writeBatch (oneRow 2) none]) := by
  intro kept
  have first := kept (⟨"csv",1⟩,oneRow 1) (.tail _ (.head _))
  revert first
  decide +kernel

end Sample
end Oxidant.Streaming
