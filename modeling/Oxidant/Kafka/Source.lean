import Oxidant.Streaming.Source
import Oxidant.Lib.Prog

/-! The Kafka micro-batch source, whose partitions are assigned directly, and a broker whose topics
gain partitions and whose answers may fail. The offline spool is left out. -/
namespace Oxidant.Kafka
open Lib Streaming

/-- A partition's number is a signed 32-bit one, and none is negative. -/
instance neZeroPartitions : NeZero (2^31) := ⟨by decide⟩

structure TopicPartition where
  topic : String
  partition : Fin (2^31)
  deriving DecidableEq, Repr

namespace TopicPartition

def display (tp : TopicPartition) : String := tp.topic ++ "-" ++ toString tp.partition.val

def order : TopicPartition → TopicPartition → Ordering :=
  compareLex (compareOn (·.topic)) (compareOn (·.partition))

instance : Std.TransCmp order := inferInstanceAs (Std.TransCmp (compareLex _ _))

instance : Std.LawfulEqCmp order where
  eq_of_compare {one other} same := by
    obtain ⟨topic,partition⟩ := one
    obtain ⟨topic',partition'⟩ := other
    simp only [order,compareLex_eq_eq,compareOn] at same
    obtain ⟨topics,partitions⟩ := same
    rw [Std.LawfulEqCmp.eq_of_compare topics,Std.LawfulEqCmp.eq_of_compare partitions]

end TopicPartition

/-- A signed 32-bit number, of which the last dash before it has taken a minus. -/
def parsePartition (text : List Char) : Option (Fin (2^31)) :=
  let digits := match text with
    | '+'::rest => rest
    | _ => text
  if digits.isEmpty || !digits.all Char.isDigit then none
  else
    let value := Nat.ofDigitChars 10 digits 0
    if small : value < 2^31 then some ⟨value,small⟩ else none

/-- A topic and a partition, split at the last dash, since topic names may contain dashes. -/
def parseTopicPartition (key : String) : Option TopicPartition :=
  let reversed := key.toList.reverse
  match reversed.dropWhile (· != '-') with
  | [] => none
  | _::topic =>
    (parsePartition (reversed.takeWhile (· != '-')).reverse).map fun partition =>
      ⟨String.ofList topic.reverse,partition⟩

abbrev PartitionMap (β : Type) := Std.ExtTreeMap TopicPartition β TopicPartition.order

inductive StartingOffsets where
  | earliest
  | latest
  | assigned (map : PartitionMap Int)

structure KafkaOptions where
  brokers : List String
  topics : List String
  startingOffsets : StartingOffsets
  maxOffsetsPerTrigger : Option Nat := none

inductive OffsetAt where
  | earliest | latest
  deriving DecidableEq, Repr

structure Record where
  key : Option (List UInt8)
  value : Option (List UInt8)
  offset : Int
  timestampMs : Int
  deriving DecidableEq, Repr

structure KafkaRecord extends Record where
  topic : String
  partition : Fin (2^31)
  deriving DecidableEq, Repr

structure Topic where
  name : String
  partitions : List (Fin (2^31))
  deriving DecidableEq, Repr

inductive Request where
  | metadataFresh
  | connect
  | listTopics
  | partitionClient (tp : TopicPartition)
  | getOffset (tp : TopicPartition) (place : OffsetAt)
  | fetchRecords (tp : TopicPartition) («from» : Int)
  | noteStart (tp : TopicPartition) (offset : Int)

abbrev Answer : Request → Type
  | .metadataFresh => Bool
  | .connect | .partitionClient _ => Except String Unit
  | .listTopics => Except String (List Topic)
  | .getOffset _ _ => Except String Int
  | .fetchRecords _ _ => Except String (List Record)
  | .noteStart _ _ => Unit

structure KafkaSource where
  offsets : PartitionMap Int := ∅
  assigned : Bool := false
  client : Bool := false
  partitionClients : PartitionMap Unit := ∅
  /-- Rotates which partition is served first when the budget cannot cover them all. -/
  roundRobin : Nat := 0

abbrev Method := Act Request Answer KafkaSource Error

section Schema

def binary (bytes : List UInt8) : Scalar :=
  .text (String.ofList (bytes.map fun byte => Char.ofNat byte.toNat))

def kafkaSchema : List Field :=
  [⟨"key",.other "Binary"⟩,⟨"value",.other "Binary"⟩,⟨"topic",.utf8⟩,⟨"partition",.int32⟩,
    ⟨"offset",.int64⟩,⟨"timestamp",.timestamp .millisecond none⟩,⟨"timestampType",.int32⟩]

def timestampTypeCreateTime : Int := 0

def toRecordBatch (records : List KafkaRecord) : RecordBatch where
  schema := kafkaSchema
  rows := records.map fun record => [record.key.map binary,record.value.map binary,
    some (.text record.topic),some (.int record.partition.val),some (.int record.offset),
    some (.int record.timestampMs),some (.int timestampTypeCreateTime)]

end Schema

namespace KafkaSource
variable (options : KafkaOptions)

def connectClient : Method Unit := do
  let self ← Act.get
  if self.client then return
  let answer : Except String Unit ← Act.request Request.connect
  match answer with
  | .error e =>
    let brokers := String.intercalate "," options.brokers
    Act.fail (.io s!"kafka: connect to [{brokers}]: {e}")
  | .ok () => Act.modify fun self => {self with client := true}

def getOffset (tp : TopicPartition) (place : OffsetAt) (what : String) : Method Int := do
  let answer : Except String Int ← Act.request (Request.getOffset tp place)
  match answer with
  | .error e => Act.fail (.io s!"kafka: {what}: {e}")
  | .ok offset => return offset

def startingAt (tp : TopicPartition) : Int ⊕ OffsetAt :=
  match options.startingOffsets with
  | .earliest => .inr .earliest
  | .latest => .inr .latest
  | .assigned map => match map[tp]? with
    | some explicit =>
      if explicit = -2 then .inr .earliest
      else if explicit = -1 then .inr .latest
      else .inl explicit
    | none => .inr .latest

/-- A partition that appeared after the query started is read from the beginning whatever
`startingOffsets` said. -/
def resolveStartOffset (tp : TopicPartition) (firstAssignment : Bool) : Method Int :=
  let shown := tp.display
  if !firstAssignment then getOffset tp .earliest s!"offset for new partition `{shown}`"
  else match startingAt options tp with
    | .inl explicit => pure explicit
    | .inr place => getOffset tp place s!"offset for `{shown}`"

def assignPartition (firstAssignment : Bool) (tp : TopicPartition) : Method Unit := do
  let self ← Act.get
  if self.partitionClients.contains tp then return
  let answer : Except String Unit ← Act.request (Request.partitionClient tp)
  match answer with
  | .error e =>
    let shown := tp.display
    Act.fail (.io s!"kafka: client for `{shown}`: {e}")
  | .ok () => do
    -- An offset restored from the checkpoint wins over `startingOffsets`.
    if !self.offsets.contains tp then
      let start ← resolveStartOffset options tp firstAssignment
      let _ : Unit ← Act.request (Request.noteStart tp start)
      Act.modify fun self => {self with offsets := self.offsets.insert tp start}
    Act.modify fun self => {self with partitionClients := self.partitionClients.insert tp ()}

def assignPartitions (firstAssignment : Bool) : List TopicPartition → Method Unit
  | [] => pure ()
  | tp::rest => do
    assignPartition options firstAssignment tp
    assignPartitions firstAssignment rest

def assignTopics (firstAssignment : Bool) (topics : List Topic) : List String → Method Unit
  | [] => pure ()
  | want::rest => match topics.find? (·.name == want) with
    | none =>
      let brokers := String.intercalate "," options.brokers
      Act.fail (.plan s!"kafka topic `{want}` does not exist on [{brokers}]")
    | some found => do
      assignPartitions options firstAssignment (found.partitions.map fun partition => ⟨want,partition⟩)
      assignTopics firstAssignment topics rest

def assign : Method Unit := do
  let self ← Act.get
  let fresh : Bool ← Act.request Request.metadataFresh
  if self.assigned && fresh then return
  connectClient options
  let answer : Except String (List Topic) ← Act.request Request.listTopics
  match answer with
  | .error e => Act.fail (.io s!"kafka: list topics: {e}")
  | .ok topics => do
    assignTopics options (!self.assigned) topics options.topics
    Act.modify fun self => {self with assigned := true}

def latestOffsets : List TopicPartition → Method (PartitionMap Int)
  | [] => pure ∅
  | tp::rest => do
    let shown := tp.display
    let latest ← getOffset tp .latest s!"latest offset for `{shown}`"
    return (← latestOffsets rest).insert tp latest

def u64Max : Nat := 2^64 - 1

/-- Divide `maxOffsetsPerTrigger`: one record for each partition, and the rest in proportion to the
lag. -/
def partitionBudgets (roundRobin : Nat) (partitions : List TopicPartition) (lag : PartitionMap Nat) :
    PartitionMap Nat :=
  let n := partitions.length
  let insertAll := fun (share : Nat → TopicPartition → Nat) =>
    partitions.zipIdx.foldl (fun shares (tp,i) => shares.insert tp (share i tp)) ∅
  match options.maxOffsetsPerTrigger with
  | none => insertAll fun _ _ => u64Max
  | some budget =>
    if n = 0 then ∅
    else
      let start := roundRobin % n
      let rotated := fun i => (i + n - start) % n
      -- Fewer records allowed than partitions: a rotating window of one each.
      if budget < n then insertAll fun i _ => if rotated i < budget then 1 else 0
      else
        let lagOf := fun tp => lag[tp]?.getD 1
        let totalLag := (partitions.map lagOf).sum
        let share := fun tp => if 0 < totalLag then 1 + (budget - n) * lagOf tp / totalLag else 1
        let remaining := if 0 < totalLag then budget - (partitions.map share).sum else budget - n
        let each := remaining / n
        let extra := remaining % n
        insertAll fun i tp => share tp + each + if rotated i < extra then 1 else 0

def slice (ends : PartitionMap Int) (budgets : PartitionMap Nat) (self : KafkaSource)
    (tp : TopicPartition) : Int × Int :=
  let «from» := self.offsets[tp]?.getD 0
  let available := ends[tp]?.getD «from»
  let budget := budgets[tp]?.getD 0
  («from»,min available (I64.saturate («from» + (min budget I64.max.toNat : Nat))))

def addSlice (ends : PartitionMap Int) (budgets : PartitionMap Nat) (self : KafkaSource)
    (range : BatchRange) (tp : TopicPartition) : BatchRange :=
  let («from»,«end») := self.slice ends budgets tp
  if «end» ≤ «from» then range
  else {range with
    start := range.start.insert tp.display «from»
    «end» := range.end.insert tp.display «end»}

def planBatch : Method BatchRange := do
  assign options
  let self ← Act.get
  let partitions := self.partitionClients.keys
  if partitions.isEmpty then return {}
  let ends ← latestOffsets partitions
  let lag := partitions.foldl (fun lag tp =>
    let «from» := self.offsets[tp]?.getD 0
    lag.insert tp (ends[tp]?.getD «from» - «from»).toNat) (∅ : PartitionMap Nat)
  let budgets := partitionBudgets options self.roundRobin partitions lag
  let range := partitions.foldl (self.addSlice ends budgets) {source := "kafka"}
  if !range.isEmpty then
    Act.modify fun self => {self with roundRobin := (self.roundRobin + 1) % 2^64}
  return range

def maxFetchRounds : Nat := 512

/-- Read one partition up to `end`. An empty answer ends it: the rest of the range does not exist
as records. -/
def fetchPartition (tp : TopicPartition) («end» : Int) : Nat → Int → Method (List KafkaRecord)
  | 0,_ => pure []
  | rounds+1,next =>
    if «end» ≤ next then pure []
    else do
      let answer : Except String (List Record) ← Act.request (Request.fetchRecords tp next)
      match answer with
      | .error e =>
        let shown := tp.display
        Act.fail (.io s!"kafka: fetch `{shown}` from offset {next}: {e}")
      | .ok fetched =>
        if fetched.isEmpty then pure []
        else do
          let taken := fetched.takeWhile fun record => record.offset < «end»
          let next := (taken.getLast?.map fun record => record.offset + 1).getD next
          let rest ← fetchPartition tp «end» rounds next
          return taken.map (fun record => ⟨record,tp.topic,tp.partition⟩) ++ rest

/-- The partitions a range names that have something in it. One that is not assigned fails the
batch. -/
def fetchPlans (self : KafkaSource) (range : BatchRange) : Except Error (List (TopicPartition × Int × Int)) :=
  range.end.toList.foldlM (fun plans (key,«end») => match parseTopicPartition key with
    | none => .ok plans
    | some tp =>
      let «from» := range.start[key]?.getD 0
      if «end» ≤ «from» then .ok plans
      else if self.partitionClients.contains tp then .ok (plans ++ [(tp,«from»,«end»)])
      else
        let shown := tp.display
        .error (.io s!"kafka: partition `{shown}` is in batch range but not assigned")) []

def fetchAll : List (TopicPartition × Int × Int) → Method (List KafkaRecord)
  | [] => pure []
  | (tp,«from»,«end»)::rest => do
    let records ← fetchPartition tp «end» maxFetchRounds «from»
    return records ++ (← fetchAll rest)

def fetchRange (range : BatchRange) : Method (List KafkaRecord) := do
  assign options
  let self ← Act.get
  let plans ← Act.raise (self.fetchPlans range)
  let records ← fetchAll plans
  return records.mergeSort fun one other => one.partition < other.partition ||
    (one.partition == other.partition && one.offset ≤ other.offset)

def putOffsets (entries : BTreeMap Int) (offsets : PartitionMap Int) : PartitionMap Int :=
  entries.toList.foldl (fun offsets (key,offset) => match parseTopicPartition key with
    | none => offsets
    | some tp => offsets.insert tp offset) offsets

/-- The position moves to the end the range fixed, not to the last record returned. -/
def moveTo (range : BatchRange) (self : KafkaSource) : KafkaSource :=
  {self with offsets := putOffsets range.end self.offsets}

def pollRange (range : BatchRange) : Method (List RecordBatch) := do
  if range.isEmpty then return []
  else if range.source = "kafka-spool" then
    Act.fail (.plan ("this batch was recorded against the offline spool, but no spool directory " ++
      "is configured now — set `oxidant.spool.dir` (or OXIDANT_KAFKA_SPOOL) to finish it, or " ++
      "start the query from a fresh checkpoint"))
  else if range.source = "kafka" then
    let records ← fetchRange options range
    Act.modify (moveTo range)
    if records.isEmpty then return [] else return [toRecordBatch records]
  else
    let planner := range.source
    Act.fail (.plan s!"batch range was planned by `{planner}`, not by the kafka source")

def committedOffsets (self : KafkaSource) : SourceOffsets where
  source := "kafka"
  entries := self.offsets.toList.foldl (fun entries (tp,offset) => entries.insert tp.display offset) ∅

def restoreOffsets (offsets : SourceOffsets) (self : KafkaSource) : KafkaSource :=
  if offsets.source = "kafka-spool" then
    let first : TopicPartition := ⟨options.topics.headD "",0⟩
    {self with offsets := self.offsets.insert first (offsets.entries["offset"]?.getD 0)}
  else if offsets.source ≠ "kafka" then self
  else {self with offsets := putOffsets offsets.entries self.offsets}

end KafkaSource

structure Log where
  earliest : Int := 0
  latest : Int := 0
  records : List Record := []

structure Broker where
  topics : List Topic
  log : TopicPartition → Log := fun _ => {}
  /-- The offset each partition was first assigned at: history, read by no request. -/
  firstAssigned : PartitionMap Int := ∅

inductive Arrival where
  | record (tp : TopicPartition) (key value : Option (List UInt8)) (timestampMs : Int)
  | marker (tp : TopicPartition)
  | partition (topic : String)
  | topic (topic : Topic)
  deriving DecidableEq, Repr

def Arrival.target : Arrival → Option TopicPartition
  | .record tp _ _ _ | .marker tp => some tp
  | .partition _ | .topic _ => none

namespace Broker

def extend (broker : Broker) (tp : TopicPartition) (records : List Record) : Broker :=
  let longer := fun log : Log => {log with latest := log.latest + 1,records := log.records ++ records}
  {broker with log := fun other => if other = tp then longer (broker.log tp) else broker.log other}

def addPartition (topic : Topic) : Topic :=
  if small : topic.partitions.length < 2^31
  then {topic with partitions := topic.partitions ++ [⟨topic.partitions.length,small⟩]} else topic

def arrive (broker : Broker) : Arrival → Broker
  | .record tp key value timestampMs => broker.extend tp [⟨key,value,(broker.log tp).latest,timestampMs⟩]
  | .marker tp => broker.extend tp []
  | .partition name => {broker with
      topics := broker.topics.map fun topic => if topic.name = name then addPartition topic else topic}
  | .topic topic => {broker with topics := broker.topics ++ [topic]}

def arriveAll (broker : Broker) (arrivals : List Arrival) : Broker := arrivals.foldl arrive broker

end Broker

structure Choice where
  arrivals : List Arrival := []
  error : Option String := none
  fresh : Bool := true
  count : Nat := 1000

structure Wire where
  choices : List Choice
  broker : Broker

namespace Broker

def getOffset (broker : Broker) (tp : TopicPartition) : OffsetAt → Int
  | .earliest => (broker.log tp).earliest
  | .latest => (broker.log tp).latest

def fetchRecords (broker : Broker) (tp : TopicPartition) («from» : Int) (count : Nat) : Except String (List Record) :=
  let log := broker.log tp
  if «from» < log.earliest ∨ log.latest < «from» then .error "OffsetOutOfRange"
  else .ok ((log.records.filter fun record => «from» ≤ record.offset).take count)

def noteStart (broker : Broker) (tp : TopicPartition) (offset : Int) : Broker :=
  {broker with firstAssigned := broker.firstAssigned.insertIfNew tp offset}

def refuse {α : Type} (error : Option String) (answer : Except String α) : Except String α :=
  match error with
  | none => answer
  | some e => .error e

def answer (choice : Choice) (broker : Broker) : (request : Request) → Answer request × Broker
  | .metadataFresh => (choice.fresh,broker)
  | .connect | .partitionClient _ => (refuse choice.error (.ok ()),broker)
  | .listTopics => (refuse choice.error (.ok broker.topics),broker)
  | .getOffset tp place => (refuse choice.error (.ok (broker.getOffset tp place)),broker)
  | .fetchRecords tp «from» => (refuse choice.error (broker.fetchRecords tp «from» choice.count),broker)
  | .noteStart tp offset => ((),broker.noteStart tp offset)

def lost : Choice where
  error := some "connection reset"
  fresh := false

def reply : Device Request Answer Unit Wire := fun _ wire request =>
  let choice := wire.choices.headD lost
  let (answer,broker) := answer choice (wire.broker.arriveAll choice.arrivals) request
  (answer,⟨wire.choices.tail,broker⟩)

end Broker

@[ext]
structure State where
  self : KafkaSource := {}
  broker : Broker

section Source
variable (options : KafkaOptions)

def call {α : Type} (method : Method α) (input : List Choice) (state : State) : Except Error α × State :=
  let done := method.exec Broker.reply () state.self ⟨input,state.broker⟩
  (done.1.1,⟨done.1.2,done.2.broker⟩)

def source : Source State (List Choice) where
  planBatch := call (KafkaSource.planBatch options)
  pollRange := fun input range => call (KafkaSource.pollRange options range) input
  committedOffsets := fun state => some state.self.committedOffsets
  restoreOffsets := fun offsets state => {state with self := state.self.restoreOffsets options offsets}

def build (state : State) : State := {state with self := {}}

end Source
end Oxidant.Kafka
