import Oxidant.Common
import Std.Data.ExtTreeSet

/-! Record batches as far as the streaming operators look into them, a null cell being `none`; what a
micro-batch source answers; the rate source, whose position counts its batches, and the file source,
whose position is the set of paths it has consumed; watermarks and deduplication across batches. -/
namespace Oxidant.Streaming

inductive TimeUnit where
  | second | millisecond | microsecond | nanosecond
  deriving DecidableEq, Repr

inductive DataType where
  | utf8 | boolean | int32 | int64 | date32
  | timestamp (unit : TimeUnit) (zone : Option String)
  | other (name : String)
  deriving DecidableEq, Repr

inductive Scalar where
  | text (value : String)
  | int (value : Int)
  deriving DecidableEq, Repr

structure Field where
  name : String
  dataType : DataType
  deriving DecidableEq, Repr

abbrev Row := List (Option Scalar)

structure RecordBatch where
  schema : List Field
  rows : List Row
  deriving DecidableEq, Repr

namespace RecordBatch

def numRows (batch : RecordBatch) : Nat := batch.rows.length

def indexOf (batch : RecordBatch) (name : String) : Option Nat :=
  batch.schema.findIdx? (·.name == name)

def dataType (batch : RecordBatch) (index : Nat) : DataType :=
  (batch.schema[index]?.map (·.dataType)).getD (.other "")

end RecordBatch

def Row.cell (row : Row) (index : Nat) : Option Scalar := (row[index]?).join

def totalRows (batches : List RecordBatch) : Nat := (batches.map RecordBatch.numRows).sum

structure SourceOffsets where
  source : String := ""
  entries : BTreeMap Int := ∅
  deriving DecidableEq

structure BatchRange where
  source : String := ""
  start : BTreeMap Int := ∅
  «end» : BTreeMap Int := ∅
  items : List String := []
  deriving DecidableEq

def BatchRange.isEmpty (range : BatchRange) : Bool :=
  range.items.isEmpty && range.end.toList.all fun (key,stop) => decide (stop ≤ range.start[key]?.getD 0)

/-- A source with state `σ`. The input `χ` of a call is what the outside did meanwhile. -/
structure Source (σ χ : Type) where
  planBatch : χ → σ → Except Error BatchRange × σ
  pollRange : χ → BatchRange → σ → Except Error (List RecordBatch) × σ
  markDurable : χ → σ → Except Error Unit × σ := fun _ state => (.ok (),state)
  committedOffsets : σ → Option SourceOffsets
  restoreOffsets : SourceOffsets → σ → σ

structure RateConfig where
  rowsPerBatch : Nat
  maxBatches : BitVec 64

structure MemoryRateSource where
  batchCount : BitVec 64 := 0
  deriving DecidableEq

namespace MemoryRateSource
variable (config : RateConfig)

def singleton (key : String) (value : Int) : BTreeMap Int := (∅ : BTreeMap Int).insert key value

def planBatch (_ : Option Error) (state : MemoryRateSource) :
    Except Error BatchRange × MemoryRateSource :=
  if config.maxBatches ≤ state.batchCount then (.ok {},state)
  else (.ok
    { source := "rate"
      start := singleton "batch" state.batchCount.toInt
      «end» := singleton "batch" (state.batchCount.toInt + 1) },state)

def generate : List RecordBatch :=
  [⟨[⟨"id",.int64⟩],(List.range config.rowsPerBatch).map fun (id : Nat) => [some (.int id)]⟩]

def pollRange (failure : Option Error) (range : BatchRange) (state : MemoryRateSource) :
    Except Error (List RecordBatch) × MemoryRateSource :=
  if range.source ≠ "rate" ∨ range.isEmpty then (.ok [],state)
  else
    (match failure with
      | some e => .error e
      | none => .ok (generate config),
     -- the count moves before the engine is asked for the rows
     ⟨BitVec.ofInt 64 (range.end["batch"]?.getD 0)⟩)

def offsets (state : MemoryRateSource) : SourceOffsets where
  source := "rate"
  entries := singleton "batch" state.batchCount.toInt

def restoreOffsets (offsets : SourceOffsets) (state : MemoryRateSource) : MemoryRateSource :=
  if offsets.source = "rate" then ⟨BitVec.ofInt 64 (offsets.entries["batch"]?.getD 0)⟩ else state

def source : Source MemoryRateSource (Option Error) where
  planBatch := planBatch config
  pollRange := pollRange config
  committedOffsets := fun state => some state.offsets
  restoreOffsets := restoreOffsets

end MemoryRateSource

structure FileConfig where
  path : String
  format : String
  read : String → Except Error (List RecordBatch)

structure FileSource where
  seen : Std.ExtTreeSet String := ∅

/-- The names in the directory at the time of a call, and the error its reads meet, if any. -/
structure FileInput where
  listing : List String := []
  failure : Option Error := none

def isStreamDataFile (name format : String) : Bool :=
  let lower := name.map Char.toLower
  if name.startsWith "." || name.startsWith "_" || name.endsWith ".crc" then false
  else match format with
    | "json" => lower.endsWith ".json" || lower.endsWith ".jsonl"
    | "csv" => lower.endsWith ".csv" || lower.endsWith ".txt"
    | "parquet" => lower.endsWith ".parquet"
    | _ => true

namespace FileSource
variable (config : FileConfig)

/-- The unseen data files, sorted so that a restart replays them as they were first read. -/
def newFiles (listing : List String) (state : FileSource) : List String :=
  let files := (listing.filter (isStreamDataFile · config.format)).map fun name => s!"{config.path}/{name}"
  (files.filter fun path => !state.seen.contains path).mergeSort fun left right => !(right < left)

def planBatch (input : FileInput) (state : FileSource) : Except Error BatchRange × FileSource :=
  (.ok {source := "file",items := newFiles config input.listing state},state)

def readFiles (items : List String) : Except Error (List RecordBatch) :=
  if config.format ∈ ["parquet","json","csv"] then
    (items.mapM config.read).map List.flatten
  else .error (.unsupported s!"readStream.format(`{config.format}`) is not a file source")

/-- The files of a range count as consumed only once all of them were read. -/
def pollRange (input : FileInput) (range : BatchRange) (state : FileSource) :
    Except Error (List RecordBatch) × FileSource :=
  if range.source ≠ "file" ∨ range.items = [] then (.ok [],state)
  else match input.failure,readFiles config range.items with
    | some e,_ => (.error e,state)
    | none,.error e => (.error e,state)
    | none,.ok batches => (.ok batches,⟨state.seen.insertMany range.items⟩)

def offsets (state : FileSource) : SourceOffsets where
  source := "file"
  entries := state.seen.inner.map fun _ _ => 1

def restoreOffsets (offsets : SourceOffsets) (state : FileSource) : FileSource :=
  if offsets.source = "file" then ⟨state.seen.insertMany offsets.entries.keys⟩ else state

def source : Source FileSource FileInput where
  planBatch := planBatch config
  pollRange := pollRange config
  committedOffsets := fun state => some state.offsets
  restoreOffsets := restoreOffsets

end FileSource

structure WatermarkConfig where
  eventTimeColumn : String
  /-- The allowed lateness, in the microseconds `Duration::as_micros` gives. -/
  delay : Nat
  deriving DecidableEq, Repr

def WatermarkConfig.watermarkFor (config : WatermarkConfig) (maxEventTimeMicros : Int) : Int :=
  I64.saturatingSub maxEventTimeMicros (I64.ofNat config.delay)

def eventTimeMicros (dataType : DataType) : Option Scalar → Option Int
  | some (.int value) => match dataType with
    | .timestamp .second _ => some (I64.saturatingMul value 1000000)
    | .timestamp .millisecond _ => some (I64.saturatingMul value 1000)
    | .timestamp .microsecond _ => some value
    | .timestamp .nanosecond _ => some (value.tdiv 1000)
    | .date32 => some (I64.saturatingMul value 86400000000)
    | _ => none
  | _ => none

def rowEventTimeMicros (batch : RecordBatch) (index : Nat) (row : Row) : Option Int :=
  eventTimeMicros (batch.dataType index) (row.cell index)

def maxEventTimeMicros (batch : RecordBatch) (index : Nat) : Option Int :=
  (batch.rows.filterMap (rowEventTimeMicros batch index)).max?

structure WatermarkTracker where
  maxEventTimeMicros : Option Int := none
  deriving DecidableEq, Repr

namespace WatermarkTracker

def restore (maxEventTimeMicros : Option Int) : WatermarkTracker := ⟨maxEventTimeMicros⟩

def observeBatch (config : WatermarkConfig) (seen : Option Int) (batch : RecordBatch) : Option Int :=
  match batch.indexOf config.eventTimeColumn with
  | none => seen
  | some index => match Oxidant.Streaming.maxEventTimeMicros batch index with
    | none => seen
    | some max => some (seen.elim max fun seen => Max.max seen max)

def observe (tracker : WatermarkTracker) (config : WatermarkConfig)
    (batches : List RecordBatch) : WatermarkTracker × Option Int :=
  (⟨batches.foldl (observeBatch config) tracker.maxEventTimeMicros⟩,
    tracker.maxEventTimeMicros.map config.watermarkFor)

private theorem observeBatch_eq_max (config seen batch) :
    observeBatch config seen batch = max seen (observeBatch config none batch) := by
  unfold observeBatch
  cases batch.indexOf config.eventTimeColumn with
  | none => simp
  | some index =>
    dsimp only
    cases Oxidant.Streaming.maxEventTimeMicros batch index <;> cases seen <;> simp

private theorem foldl_observeBatch (config seen) (batches : List RecordBatch) :
    batches.foldl (observeBatch config) seen = max seen (batches.foldl (observeBatch config) none) := by
  induction batches generalizing seen with
  | nil => simp
  | cons batch batches ih =>
    rw [List.foldl_cons,List.foldl_cons,ih,ih (observeBatch config none batch),observeBatch_eq_max]
    generalize observeBatch config none batch = first
    generalize batches.foldl (observeBatch config) none = rest
    cases seen <;> cases first <;> cases rest <;> simp

theorem observe_observe (tracker : WatermarkTracker) (config) (batches : List RecordBatch) :
    ((tracker.observe config batches).1.observe config batches).1 = (tracker.observe config batches).1 := by
  simp only [observe,WatermarkTracker.mk.injEq]
  rw [foldl_observeBatch config tracker.maxEventTimeMicros,foldl_observeBatch]
  generalize batches.foldl (observeBatch config) none = rest
  cases tracker.maxEventTimeMicros <;> cases rest <;> simp

end WatermarkTracker

/-- Arrow's display of a column type: building the formatter can fail, using it cannot. -/
abbrev ArrayFormatter := DataType → Except String (Scalar → String)

structure DedupState where
  seen : BTreeMap Int := ∅
  deriving DecidableEq

def keyFormatters (formatter : ArrayFormatter) (batch : RecordBatch) (keyCols : List Nat) :
    Except Error (List (Row → String)) :=
  keyCols.mapM fun index => match formatter (batch.dataType index) with
    | .ok display => .ok fun row => (row.cell index).elim "\x00null" display
    | .error e => .error (.execution s!"dropDuplicates cannot key on column {index}: {e}")

/-- The columns in order, a unit separator before each that does not find the key still empty. -/
def rowKey (formatters : List (Row → String)) (row : Row) : String :=
  formatters.foldl (fun key formatter => (if key.isEmpty then key else key.push '\x1f') ++ formatter row) ""

namespace DedupState

/-- One row: kept and remembered unless its key was seen. -/
def dedupRow (key : Row → String) (eventTime : Row → Option Int) (state : DedupState)
    (row : Row) : DedupState × Option Row :=
  if state.seen.contains (key row) then (state,none)
  else (⟨state.seen.insert (key row) ((eventTime row).getD I64.max)⟩,some row)

def dedupRows (key : Row → String) (eventTime : Row → Option Int) (state : DedupState) :
    List Row → DedupState × List Row
  | [] => (state,[])
  | row::rows =>
    let (next,kept) := dedupRow key eventTime state row
    let (final,rest) := dedupRows key eventTime next rows
    (final,kept.toList ++ rest)

def eventTimes (eventTimeCol : Option Nat) (batch : RecordBatch) (row : Row) : Option Int :=
  eventTimeCol.bind fun index => rowEventTimeMicros batch index row

/-- The batches in order. One that cannot be keyed ends the pass with the earlier keys in the state.
-/
def dedupEach (formatter : ArrayFormatter) (keyCols : List Nat) (eventTimeCol : Option Nat)
    (state : DedupState) : List RecordBatch → Except Error (List RecordBatch) × DedupState
  | [] => (.ok [],state)
  | batch::batches => match keyFormatters formatter batch keyCols with
    | .error e => (.error e,state)
    | .ok formatters =>
      let (next,rows) := dedupRows (rowKey formatters) (eventTimes eventTimeCol batch) state batch.rows
      match dedupEach formatter keyCols eventTimeCol next batches with
      | (.error e,final) => (.error e,final)
      | (.ok out,final) => (.ok (if rows.isEmpty then out else {batch with rows}::out),final)

def dedupBatches (formatter : ArrayFormatter) (state : DedupState) (batches : List RecordBatch)
    (keyCols : List Nat) (eventTimeCol : Option Nat) :
    Except Error (List RecordBatch) × DedupState :=
  if keyCols.isEmpty then (.ok batches,state)
  else dedupEach formatter keyCols eventTimeCol state batches

def expire (state : DedupState) (watermarkMicros : Int) : DedupState :=
  ⟨state.seen.filter fun _ claimed => decide (watermarkMicros ≤ claimed)⟩

end DedupState

def resolveKeyColumns (batch : RecordBatch) (names : List String) : Except Error (List Nat) :=
  let available := ", ".intercalate (batch.schema.map (·.name))
  names.mapM fun name => match batch.indexOf name with
    | some index => .ok index
    | none => .error (.plan (s!"`dedup_columns` names `{name}`, which the stream does not " ++
        s!"produce; available: {available}"))
end Oxidant.Streaming
