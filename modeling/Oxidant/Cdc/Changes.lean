import Oxidant.Cdc.Pgoutput
import Oxidant.Streaming.Source

/-! The Postgres change-data-capture source as far as it is about rows: what it remembers of the
publisher's relations, the change events it makes of a message, and the records it makes of
events. -/
namespace Oxidant.Cdc
open Streaming

def sourceName : String := "postgres_cdc"

def snapshotKey : String := "snapshot"

def lsnKey : String := "lsn"

def consistentPointKey : String := "consistent_point"

def opColumn : String := "__oxidant_op"

def lsnColumn : String := "__oxidant_lsn"

def tsColumn : String := "__oxidant_ts"

def pgEpochUnixMicros : Int := 946684800000000

inductive Op where
  | snapshot | insert | update | delete | truncate
  deriving DecidableEq, Repr

def Op.code : Op → String
  | snapshot => "s"
  | insert => "i"
  | update => "u"
  | delete => "d"
  | truncate => "t"

structure TableSchema where
  schema : String
  table : String
  columns : List Field
  keys : List String
  deriving DecidableEq, Repr

def TableSchema.qualified (table : TableSchema) : String := table.schema ++ "." ++ table.table

structure ChangeEvent where
  op : Op
  lsn : Int
  tsMicros : Option Int
  values : List (Option String)
  deriving DecidableEq, Repr

def emittedSchema (columns : List Field) : List Field :=
  columns ++ [⟨opColumn,.utf8⟩,⟨lsnColumn,.int64⟩,⟨tsColumn,.timestamp .microsecond none⟩]

/-- The options, the tables found on the publisher, and the mapping of text forms to column types.
-/
structure Setup where
  slot : String
  tables : List TableSchema
  publishOps : List Op
  maxSlotBytes : Nat
  maxBatchBytes : Nat
  snapshotBatchRows : Nat
  buildValue : Field → String → Except Error (Option Scalar)
  lossy : List UInt8 → String := fun _ => ""

namespace Setup
variable (setup : Setup)

def schema : List Field := emittedSchema ((setup.tables.head?.map (·.columns)).getD [])

def emittedColumns : Nat := setup.schema.length - 3

def table? (qualified : String) : Option TableSchema :=
  setup.tables.find? (·.qualified == qualified)

def buildColumn (events : List ChangeEvent) (field : Field) (index : Nat) : Except Error (List (Option Scalar)) :=
  events.mapM fun event => match (event.values[index]?).join with
    | none => .ok none
    | some text => setup.buildValue field text

def buildBatch (events : List ChangeEvent) : Except Error RecordBatch := do
  let columns ← (setup.schema.take setup.emittedColumns).zipIdx.mapM fun (field,index) =>
    setup.buildColumn events field index
  return {
    schema := setup.schema
    rows := events.zipIdx.map fun (event,row) => columns.map (fun column => (column[row]?).join) ++
      [some (.text event.op.code),some (.int event.lsn),event.tsMicros.map .int]}

def chunks {α : Type} (size : Nat) : Nat → List α → List (List α)
  | 0,_ => []
  | room+1,items => if items.isEmpty then [] else items.take size::chunks size room (items.drop size)

def buildBatches (events : List ChangeEvent) : Except Error (List RecordBatch) :=
  (chunks (max setup.snapshotBatchRows 1) events.length events).mapM setup.buildBatch

end Setup

structure PostgresCdcSource where
  relations : Std.ExtTreeMap Nat Relation := ∅
  projections : Std.ExtTreeMap Nat (List (Option Nat)) := ∅
  snapshotDone : Nat := 0
  /-- What a replay resumes from, and the only position ever confirmed to the server. -/
  position : Nat := 0
  opened : Bool := false
  snapshotOpen : Bool := false
  streamAt : Option Nat := none
  planned : Option (BatchRange × List ChangeEvent) := none

namespace PostgresCdcSource
variable (setup : Setup) (self : PostgresCdcSource)

def remember (relation : Relation) : PostgresCdcSource :=
  match setup.table? relation.qualified with
  | none => self
  | some _ =>
    let emitted := (setup.schema.map (·.name)).filter fun name => !([opColumn,lsnColumn,tsColumn].contains name)
    {self with
      projections := self.projections.insert relation.oid
        (relation.columns.map fun column => emitted.findIdx? (· == column.name))
      relations := self.relations.insert relation.oid relation}

def hexEncode (bytes : List UInt8) : String :=
  String.join (bytes.map fun byte =>
    let digit := fun value => String.singleton (Nat.digitChar value)
    digit (byte.toNat / 16) ++ digit (byte.toNat % 16))

def fromUtf8Lossy (bytes : List UInt8) : String :=
  (String.fromUTF8? ⟨bytes.toArray⟩).getD (setup.lossy bytes)

def datum : TupleData → Option String
  | .text bytes => some (fromUtf8Lossy setup bytes)
  | .binary bytes => some ("\\x" ++ hexEncode bytes)
  | .null | .unchangedToast => none

def project (relationOid : Nat) (tuple : List TupleData) : Option (List (Option String)) :=
  match self.relations[relationOid]? with
  | none => none
  | some relation => if (setup.table? relation.qualified).isNone then none else
    let projection := (self.projections[relationOid]?).getD []
    some (tuple.zipIdx.foldl (fun values (value,index) => match projection[index]? with
      | some (some target) => values.set target (datum setup value)
      | _ => values) (List.replicate setup.emittedColumns none))

def pushRow (relationOid : Nat) (op : Op) (lsn : Nat) (tuple : List TupleData) : List ChangeEvent :=
  match self.project setup relationOid tuple with
  | none => []
  | some values => [{op,lsn := Lsn.asI64 lsn,tsMicros := none,values}]

def pushChange (relationOid : Nat) (op : Op) (lsn : Nat) (tuple : List TupleData) : List ChangeEvent :=
  if setup.publishOps.contains op then self.pushRow setup relationOid op lsn tuple else []

variable {setup self} in
lemma pushRow_op (mem : event ∈ self.pushRow setup relationOid op lsn tuple) : event.op = op := by
  unfold pushRow at mem
  split at mem
  · cases mem
  · rw [List.mem_singleton.mp mem]

variable {setup self} in
lemma pushChange_op (mem : event ∈ self.pushChange setup relationOid op lsn tuple) : event.op = op := by
  unfold pushChange at mem
  split at mem
  · exact pushRow_op mem
  · cases mem

def keyPositions (relationOid : Nat) : List Nat :=
  match self.relations[relationOid]? with
  | none => []
  | some relation => match setup.table? relation.qualified with
    | none => []
    | some table =>
      let emitted := (setup.schema.take setup.emittedColumns).map (·.name)
      table.keys.filterMap fun key => emitted.findIdx? (·.toLower == key.toLower)

def movedKey (relationOid : Nat) (key old : Option (List TupleData)) (new : List TupleData) :
    Option (List TupleData) :=
  match key,old with
  | some key,_ => some key
  | none,none => none
  | none,some old =>
    let positions := self.keyPositions setup relationOid
    if positions.isEmpty then none
    else match self.project setup relationOid old,self.project setup relationOid new with
      | some was,some now => if positions.any fun index => was[index]? != now[index]? then some old
        else none
      | _,_ => none

def changes (walStart : Nat) : LogicalMessage → List ChangeEvent
  | .insert relation new => self.pushChange setup relation .insert walStart new
  | .update relation key old new =>
    (match self.movedKey setup relation key old new with
      | some was => self.pushRow setup relation .delete walStart was
      | none => []) ++ self.pushChange setup relation .update walStart new
  | .delete relation key old => self.pushChange setup relation .delete walStart ((old <|> key).getD [])
  | .truncate _ relations => relations.flatMap fun relation => self.pushChange setup relation .truncate walStart []
  | _ => []

variable {setup self}

theorem pushRow_lsn (mem : event ∈ self.pushRow setup oid op lsn tuple) : event.lsn = Lsn.asI64 lsn := by
  unfold pushRow at mem
  split at mem
  · cases mem
  · rw [List.mem_singleton.mp mem]

theorem pushChange_lsn (mem : event ∈ self.pushChange setup oid op lsn tuple) : event.lsn = Lsn.asI64 lsn := by
  unfold pushChange at mem
  split at mem
  · exact pushRow_lsn mem
  · cases mem

theorem changes_lsn (mem : event ∈ self.changes setup walStart message) : event.lsn = Lsn.asI64 walStart := by
  cases message with
  | insert => exact pushChange_lsn mem
  | update oid key old new =>
    rcases List.mem_append.mp mem with was | now
    · split at was
      · exact pushRow_lsn was
      · cases was
    · exact pushChange_lsn now
  | delete => exact pushChange_lsn mem
  | truncate options oids =>
    obtain ⟨oid,_,mem⟩ := List.mem_flatMap.mp mem
    exact pushChange_lsn mem
  | _ => cases mem

end PostgresCdcSource

end Oxidant.Cdc
