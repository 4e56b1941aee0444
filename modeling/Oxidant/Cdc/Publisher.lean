import Oxidant.Cdc.Changes
import Oxidant.Lib.Prog

/-! How the change-data-capture source plans, polls and confirms micro-batches over the calls of its
wire, and the publisher at the other end: a history of committed transactions in commit order, the
replication slot, and a session that sends whole transactions, goes quiet or breaks at any frame. -/
namespace Oxidant.Cdc
open Lib Streaming

structure SlotOpen where
  consistentPoint : Nat
  existed : Bool
  snapshotOpen : Bool
  deriving DecidableEq, Repr

structure SlotMetrics where
  retainedBytes : Nat
  serverFlush : Nat
  deriving DecidableEq, Repr

inductive Request where
  | openSlot (create : Bool)
  | snapshotOpen (table : TableSchema)
  | snapshotFetch (rows : Nat)
  | snapshotClose
  | endSnapshot
  | startStream (start : Nat)
  | nextWire
  | confirm (written flushed : Nat)
  | slotMetrics
  | statusElapsed

abbrev Answer : Request → Type
  | .openSlot _ => Except Error SlotOpen
  | .snapshotFetch _ => Except Error (List (List (Option String)))
  | .snapshotOpen _ | .snapshotClose | .endSnapshot | .startStream _ => Except Error Unit
  | .nextWire => Except Error (Option WireMessage)
  | .confirm _ _ => Except Error Bool
  | .slotMetrics => Except Error SlotMetrics
  | .statusElapsed => Bool

abbrev Method := Act Request Answer PostgresCdcSource Error

def bytes (count : Nat) : String :=
  let scaled := fun (power : Nat) (unit : String) =>
    let tenths := count * 10 / 1024^power
    let rest := count * 10 % 1024^power
    let rounded := if 1024^power < 2 * rest ∨ 2 * rest = 1024^power ∧ tenths % 2 = 1
      then tenths + 1 else tenths
    let whole := rounded / 10
    let tenth := rounded % 10
    s!"{whole}.{tenth} {unit}"
  if count < 1024 then s!"{count} B"
  else if count < 1024^2 then scaled 1 "KiB"
  else if count < 1024^3 then scaled 2 "MiB"
  else if count < 1024^4 then scaled 3 "GiB"
  else scaled 4 "TiB"

def quoteLiteral (text : String) : String :=
  "'" ++ String.join (text.toList.map fun c =>
    if c = '\'' then "''" else String.singleton c) ++ "'"

namespace PostgresCdcSource

section Wire
variable (setup : Setup)

def ensureOpen : Method Unit := do
  let self ← Act.get
  if self.opened then return
  let restoredComplete := !setup.tables.isEmpty && setup.tables.length ≤ self.snapshotDone
  let answer : Except Error SlotOpen ← Act.request (Request.openSlot !restoredComplete)
  let slot ← Act.raise answer
  if restoredComplete then
    if !slot.existed then
      let name := setup.slot
      let reached := Lsn.display self.position
      Act.fail (.execution (s!"postgres_cdc: replication slot `{name}` no longer exists, but " ++
        s!"this pipeline has committed up to LSN {reached}. WAL written since then may already " ++
        "be recycled, so resuming would silently skip changes. Re-snapshot by deleting this " ++
        "table's checkpoint directory, then restart the pipeline."))
  else
    Act.modify fun self => {self with
      snapshotDone := 0
      position := slot.consistentPoint
      snapshotOpen := slot.snapshotOpen
      streamAt := none}
  Act.modify fun self => {self with opened := true}

def guardSlot : Method SlotMetrics := do
  let answer : Except Error SlotMetrics ← Act.request Request.slotMetrics
  let metrics ← Act.raise answer
  if setup.maxSlotBytes < metrics.retainedBytes then
    let name := setup.slot
    let held := bytes metrics.retainedBytes
    let limit := bytes setup.maxSlotBytes
    let quoted := quoteLiteral setup.slot
    Act.fail (.execution (s!"postgres_cdc: replication slot `{name}` is holding {held} of WAL, " ++
      s!"over the `max_slot_bytes` limit of {limit}. The source database's disk fills next, so " ++
      "this pipeline stops rather than let it. Drain the backlog (or raise " ++
      "`max_slot_bytes:`); if the pipeline is being retired, drop the slot with " ++
      s!"`SELECT pg_drop_replication_slot({quoted});`."))
  return metrics

def confirmPosition : Method Bool := do
  let self ← Act.get
  let answer : Except Error Bool ← Act.request (Request.confirm self.position self.position)
  Act.raise answer

def heartbeat : Method Unit := do
  let due : Bool ← Act.request Request.statusElapsed
  if due then
    let _ ← confirmPosition

def finishSnapshot : Method Unit := do
  let self ← Act.get
  if self.snapshotOpen && !setup.tables.isEmpty && setup.tables.length ≤ self.snapshotDone then
    let answer : Except Error Unit ← Act.request Request.endSnapshot
    Act.raise answer
    Act.modify fun self => {self with snapshotOpen := false}

def ensureStream (start : Nat) : Method Unit := do
  finishSnapshot setup
  let self ← Act.get
  if self.streamAt = some start then return
  let answer : Except Error Unit ← Act.request (Request.startStream start)
  match answer with
  | .error e =>
    Act.modify fun self => {self with streamAt := none}
    Act.fail e
  | .ok () => Act.modify fun self => {self with streamAt := some start}

end Wire
end PostgresCdcSource

structure Scan where
  committed : List ChangeEvent := []
  openTxn : List ChangeEvent := []
  bytesSeen : Nat := 0
  «end» : Nat
  observed : Nat
  inTxn : Bool := false

namespace PostgresCdcSource

def consume (self : PostgresCdcSource) (setup : Setup) («from» walStart : Nat) (scan : Scan) : LogicalMessage → Scan
  | .begin _ _ _ => {scan with inTxn := true,openTxn := []}
  | .commit _ _ endLsn commitTime =>
    let observed := max scan.observed endLsn
    -- A transaction that ended at or before the start is already downstream.
    if endLsn ≤ «from» then {scan with observed,inTxn := false,openTxn := []}
    else {scan with
      observed
      inTxn := false
      openTxn := []
      committed := scan.committed ++ scan.openTxn.map fun event =>
        {event with tsMicros := some (commitTime + pgEpochUnixMicros)}
      «end» := endLsn}
  | message => {scan with openTxn := scan.openTxn ++ self.changes setup walStart message}

def learn (self : PostgresCdcSource) (setup : Setup) : LogicalMessage → PostgresCdcSource
  | .relation relation => self.remember setup relation
  | _ => self

section Batches
variable (setup : Setup)

def takeData («from» walStart walEnd : Nat) (data : List UInt8) (scan : Scan) : Method Scan := do
  let message ← Act.raise (decodeLogical data)
  let self ← Act.get
  Act.modify fun self => self.learn setup message
  return self.consume setup «from» walStart
    {scan with observed := max scan.observed walEnd,bytesSeen := scan.bytesSeen + data.length} message

/-- Read on until the target or the budget is reached between transactions, or the publisher is
quiet. `room` bounds the frames. -/
def readFrames («from» stopAt byteBudget : Nat) : Nat → Scan → Method Scan
  | 0,_ => Act.fail (.io "postgres_cdc: the replication stream did not pause")
  | room+1,scan =>
    if !scan.inTxn && (stopAt ≤ scan.observed || byteBudget ≤ scan.bytesSeen) then pure scan
    else do
      let next : Except Error (Option WireMessage) ← Act.request Request.nextWire
      match next with
      | .error e => do
        Act.modify fun self => {self with streamAt := none}
        Act.fail e
      | .ok none => pure scan
      | .ok (some (.keepalive walEnd replyRequested)) => do
        if replyRequested then
          let _ ← confirmPosition
        readFrames «from» stopAt byteBudget room {scan with observed := max scan.observed walEnd}
      | .ok (some (.xlogData walStart walEnd data)) => do
        let scan ← takeData setup «from» walStart walEnd data scan
        readFrames «from» stopAt byteBudget room scan

/-- Where a read leaves the stream, and the range it covered. One that ended inside a transaction
has to seek again. -/
def settle («from» : Nat) (scan : Scan) : Method (List ChangeEvent × Nat) := do
  Act.modify fun self => {self with
    streamAt := if scan.inTxn then none else some (max scan.end «from»)}
  if scan.committed.isEmpty && !scan.inTxn then
    Act.modify fun self => {self with streamAt := some (max scan.observed «from»)}
    return (scan.committed,max scan.observed «from»)
  else return (scan.committed,scan.end)

def readForward (room «from» stopAt byteBudget : Nat) : Method (List ChangeEvent × Nat) := do
  ensureStream setup «from»
  let scan ← readFrames setup «from» stopAt byteBudget room {«end» := «from»,observed := «from»}
  settle «from» scan

def lsnRange («from» «end» : Nat) : BatchRange where
  source := sourceName
  start := {(lsnKey,Lsn.asI64 «from»)}
  «end» := {(lsnKey,Lsn.asI64 «end»)}

def snapshotRange (index point : Nat) : BatchRange where
  source := sourceName
  start := {(snapshotKey,I64.ofNat index),(consistentPointKey,Lsn.asI64 point)}
  «end» := {(snapshotKey,I64.ofNat index + 1)}

def planBatch (room : Nat) : Method BatchRange := do
  ensureOpen setup
  let metrics ← guardSlot setup
  let self ← Act.get
  if self.snapshotDone < setup.tables.length then
    return snapshotRange self.snapshotDone self.position
  else
    let (events,«end») ← readForward setup room self.position metrics.serverFlush setup.maxBatchBytes
    if events.isEmpty then
      -- Nothing of this publication in the stretch just read: the position moves over it.
      Act.modify fun self => {self with position := max self.position «end»}
      heartbeat
      return {}
    else
      let range := lsnRange self.position «end»
      Act.modify fun self => {self with planned := some (range,events)}
      return range

def readSlices : Nat → Method (List RecordBatch)
  | 0 => Act.fail (.io "postgres_cdc: the snapshot cursor did not end")
  | room+1 => do
    let answer : Except Error (List (List (Option String))) ←
      Act.request (Request.snapshotFetch setup.snapshotBatchRows)
    let rows ← Act.raise answer
    if rows.isEmpty then return []
    else do
      let self ← Act.get
      -- One below the consistent point, so that the first change after it wins.
      let events := rows.map fun values => ChangeEvent.mk .snapshot
        (I64.saturatingSub (Lsn.asI64 self.position) 1) none values
      let batches ← Act.raise (setup.buildBatches events)
      return batches ++ (← readSlices room)

def readTable (room : Nat) (table : TableSchema) : Method (List RecordBatch) := do
  let opened : Except Error Unit ← Act.request (Request.snapshotOpen table)
  Act.raise opened
  let batches ← readSlices setup room
  let closed : Except Error Unit ← Act.request Request.snapshotClose
  Act.raise closed
  return batches

/-- Read one table inside the slot's snapshot transaction. A range planned against another slot is
answered, but the pass begins again. -/
def pollSnapshot (room tableIndex : Nat) (plannedAt : Option Int) : Method (List RecordBatch) :=
  match setup.tables[tableIndex]? with
  | none =>
    let count := setup.tables.length
    Act.fail (.plan (s!"postgres_cdc: this batch was recorded against source table {tableIndex}, " ++
      s!"and the source now has {count} — the `tables:` option changed under a live checkpoint"))
  | some table => do
    let self ← Act.get
    let honourable := plannedAt == some (Lsn.asI64 self.position)
    Act.modify fun self => {self with
      snapshotDone := if honourable then self.snapshotDone else 0}
    if !self.snapshotOpen then
      let name := table.qualified
      Act.fail (.execution (s!"postgres_cdc: the snapshot of `{name}` was planned, but the " ++
        "slot's snapshot transaction is no longer open. This batch is already durable — the " ++
        "transaction is committed once the checkpoint holds it — so it should never be " ++
        "replayed; if the pipeline is stuck here, delete this table's checkpoint directory to " ++
        "re-snapshot."))
    else match ← Act.attempt (readTable setup room table) with
      | .error e => do
        Act.modify fun self => {self with opened := false,snapshotOpen := false,streamAt := none}
        Act.fail e
      | .ok batches => do
        Act.modify fun self => {self with
          snapshotDone := if honourable then tableIndex + 1 else self.snapshotDone}
        return batches

def replay (room «from» «end» : Nat) : Method (List ChangeEvent) := do
  ensureStream setup «from»
  let (events,reached) ← readForward setup room «from» «end» (2^64 - 1)
  if reached < «end» then
    let first := Lsn.display «from»
    let last := Lsn.display «end»
    let short := Lsn.display reached
    Act.fail (.execution (s!"postgres_cdc: replaying batch range [{first}, {last}) reached only " ++
      s!"{short} — the publisher no longer holds the WAL this batch covered"))
  else return events.filter fun event => event.lsn < Lsn.asI64 «end»

def rangeEvents (room : Nat) (range : BatchRange) («from» «end» : Nat) : Method (List ChangeEvent) := do
  let self ← Act.get
  Act.modify fun self => {self with planned := none}
  match self.planned with
  | some (planned,events) =>
    if planned = range then return events else replay setup room «from» «end»
  | none => replay setup room «from» «end»

def pollStream (room : Nat) (range : BatchRange) («from» «end» : Nat) : Method (List RecordBatch) := do
  let events ← rangeEvents setup room range «from» «end»
  let batches ← Act.raise (setup.buildBatches events)
  Act.modify fun self => {self with position := «end»}
  return batches

def pollRange (room : Nat) (range : BatchRange) : Method (List RecordBatch) := do
  if range.isEmpty then return []
  else if range.source ≠ sourceName then
    let planner := range.source
    Act.fail (.plan s!"postgres_cdc: batch range was planned by `{planner}`, not by this source")
  else
    ensureOpen setup
    match range.start[snapshotKey]? with
    | some index => pollSnapshot setup room index.toNat range.start[consistentPointKey]?
    | none =>
      let «from» := Lsn.fromI64 (range.start[lsnKey]?.getD 0)
      let «end» := Lsn.fromI64 (range.end[lsnKey]?.getD 0)
      pollStream setup room range «from» «end»

def markDurable : Method Unit := do
  let self ← Act.get
  if self.opened then
    finishSnapshot setup
    let _ ← confirmPosition

end Batches

def committedOffsets (self : PostgresCdcSource) : SourceOffsets where
  source := sourceName
  entries := {(snapshotKey,I64.ofNat self.snapshotDone),(lsnKey,Lsn.asI64 self.position)}

def restoreOffsets (offsets : SourceOffsets) (self : PostgresCdcSource) : PostgresCdcSource :=
  if offsets.source ≠ sourceName then self
  else {self with
    snapshotDone := (offsets.entries[snapshotKey]?.getD 0).toNat
    position := Lsn.fromI64 (offsets.entries[lsnKey]?.getD 0)}

end PostgresCdcSource

structure Frame where
  walStart : Nat
  walEnd : Nat
  data : List UInt8
  message : LogicalMessage
  decodes : decodeLogical data = .ok message

def Frame.wire (frame : Frame) : WireMessage := .xlogData frame.walStart frame.walEnd frame.data

structure Announcement extends Frame where
  relation : Relation
  announces : message = .relation relation

def LogicalMessage.refersTo : LogicalMessage → List Nat
  | .insert oid _ | .update oid _ _ _ | .delete oid _ _ => [oid]
  | .truncate _ oids => oids
  | _ => []

/-- Between its begin and its commit a transaction sends neither again, and no shapes but those
its changes need. -/
def LogicalMessage.isContent : LogicalMessage → Bool
  | .begin _ _ _ | .commit _ _ _ _ | .relation _ => false
  | _ => true

/-- A message of a transaction, and the shapes of the relations it refers to. -/
structure Change extends Frame where
  shapes : List Announcement
  content : message.isContent = true
  described : ∀ oid ∈ message.refersTo, oid ∈ shapes.map (·.relation.oid)
  distinct : (shapes.map (·.relation.oid)).Nodup

def Change.events (setup : Setup) (change : Change) : List ChangeEvent :=
  (change.shapes.foldl (fun self shape => self.remember setup shape.relation)
    ({} : PostgresCdcSource)).changes setup change.walStart change.message

/-- A committed transaction. Its log positions are below its end, and none is near the sign
bit. -/
structure Transaction where
  begin : Frame
  changes : List Change
  commit : Frame
  endLsn : Nat
  commitTime : Int
  begins : ∃ finalLsn time xid, begin.message = .begin finalLsn time xid
  commits : ∃ flags commitLsn, commit.message = .commit flags commitLsn endLsn commitTime
  written : ∀ change ∈ changes, change.walStart < endLsn
  sent : begin.walEnd ≤ endLsn ∧ commit.walEnd ≤ endLsn ∧ ∀ change ∈ changes,
    change.walEnd ≤ endLsn ∧ ∀ shape ∈ change.shapes, shape.walEnd ≤ endLsn
  small : endLsn < 2^63

def Transaction.events (setup : Setup) (txn : Transaction) : List ChangeEvent :=
  (txn.changes.flatMap (·.events setup)).map fun event =>
    {event with tsMicros := some (txn.commitTime + pgEpochUnixMicros)}

lemma Transaction.events_lsn {txn : Transaction} (mem : event ∈ txn.events setup) :
    ∃ change ∈ txn.changes, event.lsn = Lsn.asI64 change.walStart := by
  obtain ⟨plain,among,rfl⟩ := List.mem_map.mp mem
  obtain ⟨change,there,among⟩ := List.mem_flatMap.mp among
  have stamped : plain.lsn = _ := PostgresCdcSource.changes_lsn among
  exact ⟨change,there,stamped⟩

structure Publisher where
  log : List Transaction
  ordered : log.Pairwise fun first second => first.endLsn < second.endLsn
  tableAt : Nat → TableSchema → List (List (Option String)) := fun _ _ => []

/-- The name under which a relation is first sent. -/
def Publisher.names (publisher : Publisher) (oid : Nat) : String :=
  (publisher.log.flatMap (·.changes.flatMap (·.shapes))).find? (·.relation.oid == oid)
    |>.elim "" (·.relation.qualified)

/-- No table is renamed within the log. -/
class Unrenamed (publisher : Publisher) : Prop where
  named : ∀ txn ∈ publisher.log, ∀ change ∈ txn.changes, ∀ shape ∈ change.shapes,
    shape.relation.qualified = publisher.names shape.relation.oid

/-- The first transaction not sent in full, what is left of it if it is being sent, and the shapes
announced, the latest first. -/
structure Session where
  index : Nat
  inside : Option (List Change) := none
  announced : List Relation := []

def Session.knows (session : Session) (relation : Relation) : Bool :=
  session.announced.find? (·.oid == relation.oid) == some relation

structure Server where
  slotExists : Bool := false
  point : Nat := 0
  session : Option Session := none
  cursor : List (List (Option String)) := []
  shown : Nat := 0
  confirmed : List Nat := []

inductive Pace where
  | deliver
  | keepalive (walEnd : Nat) (replyRequested : Bool)
  | quiet
  | copyDone
  deriving DecidableEq, Repr

/-- What the outside does at one call of the wire. A call that fails may have taken effect. -/
structure WireChoice where
  error : Option Error := none
  landed : Bool := false
  point : Nat := 0
  retainedBytes : Nat := 0
  serverFlush : Nat := 0
  startIndex : Nat := 0
  pace : Pace := .deliver
  statusElapsed : Bool := false

def WireChoice.solicits (choice : WireChoice) : Bool :=
  choice.statusElapsed || match choice.pace with
    | .keepalive _ replyRequested => replyRequested
    | _ => false

def lsnLimit : Nat := 2^63 - 1

namespace Publisher
variable (publisher : Publisher) (setup : Setup)

/-- The next frame of a session and the end of its transaction. A change is sent once its shapes are
announced. -/
def next (session : Session) : Option (Frame × Nat × Session) :=
  match publisher.log[session.index]? with
  | none => none
  | some txn => match session.inside with
    | none => some (txn.begin,txn.endLsn,{session with inside := some txn.changes})
    | some [] => some (txn.commit,txn.endLsn,{session with index := session.index + 1,inside := none})
    | some (change::rest) =>
      match change.shapes.find? fun shape => !session.knows shape.relation with
      | some shape => some (shape.toFrame,txn.endLsn,
          {session with announced := shape.relation::session.announced})
      | none => some (change.toFrame,txn.endLsn,{session with inside := some rest})

/-- A keepalive names no position at or past the end of a transaction not sent in full. -/
def sentUpTo (session : Session) (walEnd : Nat) : Nat :=
  match publisher.log[session.index]? with
  | none => min walEnd lsnLimit
  | some txn => min walEnd (txn.endLsn - 1)

/-- A session starts at the latest with the first transaction past `start` that has something
for the source. -/
def startIndex (start wanted : Nat) : Nat :=
  min wanted (publisher.log.findIdx fun txn => start < txn.endLsn && !(txn.events setup).isEmpty)

def drop (server : Server) : Server := {server with session := none,cursor := []}

def openSlot (choice : WireChoice) (create : Bool) (server : Server) : Except Error SlotOpen × Server :=
  match choice.error,create with
  | some e,false => (.error e,server)
  | some e,true => (.error e,{drop server with slotExists := server.slotExists && !choice.landed})
  | none,false => (.ok ⟨server.confirmed.getLastD server.point,server.slotExists,false⟩,server)
  | none,true =>
    -- A new slot is consistent as of now, past everything shown before.
    let point := max (min choice.point lsnLimit) server.shown
    (.ok ⟨point,server.slotExists,true⟩,{drop server with slotExists := true,point,shown := point})

def nextWire (choice : WireChoice) (server : Server) : Except Error (Option WireMessage) × Server :=
  match server.session with
  | none => (.error (.io "postgres_cdc: the replication session is not streaming"),server)
  | some session => match choice.error,choice.pace with
    | some e,_ => (.error e,drop server)
    | none,.quiet => (.ok none,server)
    | none,.copyDone => (.ok none,drop server)
    | none,.keepalive walEnd replyRequested =>
      let walEnd := publisher.sentUpTo session walEnd
      (.ok (some (.keepalive walEnd replyRequested)), {server with shown := max server.shown walEnd})
    | none,.deliver => match publisher.next session with
      | none => (.ok none,server)
      | some (frame,endLsn,session) => (.ok (some frame.wire),
          {server with session := some session,shown := max server.shown endLsn})

def confirm (choice : WireChoice) (flushed : Nat) (server : Server) : Except Error Bool × Server :=
  match server.session,choice.error with
  | none,_ => (.ok false,server)
  | some _,none => (.ok true,{server with confirmed := server.confirmed ++ [flushed]})
  | some _,some e => (.error e,{drop server with
      confirmed := if choice.landed then server.confirmed ++ [flushed] else server.confirmed})

def perform {α : Type} (choice : WireChoice) (server : Server) (value : α) (after : Server) :
    Except Error α × Server :=
  match choice.error with
  | none => (.ok value,after)
  | some e => (.error e,drop server)

def answer (choice : WireChoice) (server : Server) : (request : Request) → Answer request × Server
  | .openSlot create => openSlot choice create server
  | .snapshotOpen table => perform choice server () {server with cursor := publisher.tableAt server.point table}
  | .snapshotFetch rows =>
    perform choice server (server.cursor.take rows) {server with cursor := server.cursor.drop rows}
  | .snapshotClose | .endSnapshot => perform choice server () server
  | .startStream start => perform choice server ()
      {server with session := some {index := publisher.startIndex setup start choice.startIndex}}
  | .nextWire => publisher.nextWire choice server
  | .confirm _ flushed => confirm choice flushed server
  | .slotMetrics => match choice.error with
    | none => (.ok ⟨choice.retainedBytes,choice.serverFlush⟩,server)
    | some e => (.error e,server)
  | .statusElapsed => (choice.statusElapsed,server)

end Publisher

structure Wire where
  choices : List WireChoice
  server : Server

namespace Publisher
variable (publisher : Publisher) (setup : Setup)

def lost : WireChoice where
  error := some (.io "postgres_cdc: read from the server: connection reset")

def reply : Device Request Answer Unit Wire := fun _ wire request =>
  let (answer,server) := publisher.answer setup (wire.choices.headD lost) wire.server request
  (answer,⟨wire.choices.tail,server⟩)

end Publisher

structure State where
  self : PostgresCdcSource := {}
  server : Server := {}

namespace Publisher
variable (publisher : Publisher) (setup : Setup)

/-- One call of the source, with no more calls of the wire than the outside is ready for, and one
that fails. -/
def call {α : Type} (method : Nat → Method α) (input : List WireChoice) (state : State) : Except Error α × State :=
  let done := (method (input.length + 1)).exec (publisher.reply setup) () state.self ⟨input,state.server⟩
  (done.1.1,⟨done.1.2,done.2.server⟩)

def source : Source State (List WireChoice) where
  planBatch := publisher.call setup (PostgresCdcSource.planBatch setup)
  pollRange := fun input range =>
    publisher.call setup (fun room => PostgresCdcSource.pollRange setup room range) input
  markDurable := publisher.call setup fun _ => PostgresCdcSource.markDurable setup
  committedOffsets := fun state => some state.self.committedOffsets
  restoreOffsets := fun offsets state => {state with self := state.self.restoreOffsets offsets}

def build (state : State) : State := {self := {},server := drop state.server}

end Publisher

/-! A short history of one table: two inserts in one transaction, a transaction without anything
for the source, and one more insert. -/
namespace Sample

def bigEndian (width value : Nat) : List UInt8 :=
  (List.range width).map fun place => UInt8.ofNat (value / 256^(width - 1 - place))

def table : Relation := ⟨42,"p","t",100,[⟨true,"i",20,-1⟩]⟩

def shape : Announcement where
  walStart := 0
  walEnd := 0
  data := [82] ++ bigEndian 4 42 ++ [112,0,116,0,100] ++ bigEndian 2 1 ++ [1,105,0] ++
    bigEndian 4 20 ++ bigEndian 4 (2^32 - 1)
  message := .relation table
  decodes := by decide +kernel
  relation := table
  announces := rfl

def insertAt (walStart : Nat) : Change where
  walStart
  walEnd := walStart
  data := [73] ++ bigEndian 4 42 ++ [78] ++ bigEndian 2 1 ++ [116] ++ bigEndian 4 1 ++ [49]
  message := .insert 42 [.text [49]]
  decodes := by decide
  shapes := [shape]
  content := rfl
  described := by decide
  distinct := by decide

def beginFrame : Frame where
  walStart := 3
  walEnd := 3
  data := [66] ++ bigEndian 8 10 ++ bigEndian 8 5 ++ bigEndian 4 7
  message := .begin 10 5 7
  decodes := by decide

def commitFrame (endLsn : Nat) (decodes : decodeLogical ([67,0] ++ bigEndian 8 endLsn ++
    bigEndian 8 endLsn ++ bigEndian 8 5) = .ok (.commit 0 endLsn endLsn 5)) : Frame where
  walStart := endLsn
  walEnd := endLsn
  data := [67,0] ++ bigEndian 8 endLsn ++ bigEndian 8 endLsn ++ bigEndian 8 5
  message := .commit 0 endLsn endLsn 5
  decodes

def twoInserts : Transaction where
  begin := beginFrame
  changes := [insertAt 5,insertAt 6]
  commit := commitFrame 10 (by decide)
  endLsn := 10
  commitTime := 5
  begins := ⟨_,_,_,rfl⟩
  commits := ⟨_,_,rfl⟩
  written := by decide
  sent := by decide
  small := by decide

def nothing : Transaction where
  begin := beginFrame
  changes := []
  commit := commitFrame 20 (by decide)
  endLsn := 20
  commitTime := 5
  begins := ⟨_,_,_,rfl⟩
  commits := ⟨_,_,rfl⟩
  written := by decide
  sent := by decide
  small := by decide

def oneInsert : Transaction where
  begin := beginFrame
  changes := [insertAt 25]
  commit := commitFrame 30 (by decide)
  endLsn := 30
  commitTime := 5
  begins := ⟨_,_,_,rfl⟩
  commits := ⟨_,_,rfl⟩
  written := by decide
  sent := by decide
  small := by decide

def publisher : Publisher where
  log := [twoInserts,nothing,oneInsert]
  ordered := by decide

instance : Unrenamed publisher := ⟨by decide⟩

def setup : Setup where
  slot := "s"
  tables := [⟨"p","t",[⟨"i",.utf8⟩],["i"]⟩]
  publishOps := [.insert]
  maxSlotBytes := 1000
  maxBatchBytes := 1000
  snapshotBatchRows := 10
  buildValue := fun _ text => .ok (some (.text text))

def offsets : SourceOffsets := PostgresCdcSource.committedOffsets {snapshotDone := 1}

def restored : State :=
  ⟨({} : PostgresCdcSource).restoreOffsets offsets,{slotExists := true}⟩

end Sample
end Oxidant.Cdc
