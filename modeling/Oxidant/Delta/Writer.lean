import Oxidant.Common
import Oxidant.Lib.Prog

/-! The Delta transaction log and its writer: reading the log, committing with a retry at the next free
version, appending and replacing, and the checkpoints in between. -/
namespace Oxidant.Delta
open Lib

def minReaderVersion : Nat := 1

def minWriterVersion : Nat := 2

structure FileStats where
  numRecords : Nat
  columns : String := ""
  deriving DecidableEq, Repr

structure DeltaAddFile where
  path : String
  size : Nat
  numRecords : Nat
  partitionValues : BTreeMap String := ∅
  stats : Option FileStats := none
  deriving DecidableEq

structure DeltaTxn where
  appId : String
  version : Int
  deriving DecidableEq, Repr

structure AddJson where
  path : Option String
  size : Option Nat
  partitionValues : Option (BTreeMap String)
  stats : Option FileStats
  deriving DecidableEq

inductive Action where
  | protocol (minReaderVersion minWriterVersion : Nat)
  | metaData (id schemaString : String) (partitionColumns : List String)
  | txn (appId : Option String) (version : Option Int)
  | remove (path : Option String)
  | add (file : AddJson)
  | other
  deriving DecidableEq

def addFromJson (add : AddJson) : Option DeltaAddFile :=
  add.path.map fun path =>
    { path
      size := add.size.getD 0
      numRecords := (add.stats.map (·.numRecords)).getD 0
      partitionValues := add.partitionValues.getD ∅
      stats := add.stats }

def addAction (file : DeltaAddFile) : Action :=
  .add
    { path := some file.path
      size := some file.size
      partitionValues := some file.partitionValues
      stats := some (file.stats.getD {numRecords := file.numRecords}) }

def removeAction (file : DeltaAddFile) : Action := .remove (some file.path)

def txnAction (txn : DeltaTxn) : Action := .txn (some txn.appId) (some txn.version)

def commitHeader (version : Nat) (schemaString : Except Error String) (tableId : String)
    (partitionColumns : List String) : Except Error (List Action) :=
  if version = 0 then do
    let schema ← schemaString
    return [.protocol minReaderVersion minWriterVersion,.metaData tableId schema partitionColumns]
  else return []

def renderCommitWithRemoves (version : Nat) (schemaString : Except Error String)
    (files removes : List DeltaAddFile) (tableId : String) (partitionColumns : List String)
    (txn : Option DeltaTxn) : Except Error (List Action) := do
  let header ← commitHeader version schemaString tableId partitionColumns
  return header ++ txn.toList.map txnAction ++ removes.map removeAction ++ files.map addAction

structure Scan where
  live : List DeltaAddFile := []
  committedTxn : Option Int := none
  trustworthy : Bool := true
  deriving DecidableEq

namespace Scan

def raiseTxn (committed : Option Int) (version : Int) : Option Int :=
  some (committed.elim version (max · version))

/-- A remove of a file that was never seen added makes the picture of the table incomplete. -/
def retire (scan : Scan) (path : String) : Scan :=
  if scan.live.any (·.path == path) then
    {scan with live := scan.live.filter (·.path != path)}
  else {scan with trustworthy := false}

def apply (appId : Option String) (scan : Scan) : Action → Scan
  | .add add => match addFromJson add with
    | some file => {scan with live := scan.live ++ [file]}
    | none => {scan with trustworthy := false}
  | .remove (some path) => scan.retire path
  | .remove none => {scan with trustworthy := false}
  | .txn id version =>
    if appId.isSome ∧ id = appId then
      match version with
      | some version => {scan with committedTxn := raiseTxn scan.committedTxn version}
      | none => scan
    else scan
  | .protocol _ _ | .metaData _ _ _ | .other => scan

def commit (appId : Option String) (scan : Scan) (body : List Action) : Scan :=
  body.foldl (apply appId) scan

end Scan

structure LogState where
  nextVersion : Nat
  liveFiles : Option (List DeltaAddFile)
  committedTxn : Option Int
  deriving DecidableEq

def Scan.state (scan : Scan) (version : Nat) : LogState where
  nextVersion := version
  liveFiles := if scan.trustworthy then some scan.live else none
  committedTxn := scan.committedTxn

structure AddRow where
  path : String
  size : Int
  partitionValues : BTreeMap String
  stats : Option FileStats
  deriving DecidableEq

structure CheckpointRow where
  protocol : Option (Nat × Nat) := none
  metaData : Option (String × String × List String) := none
  txn : Option DeltaTxn := none
  add : Option AddRow := none
  deriving DecidableEq

def addRow (file : DeltaAddFile) : AddRow where
  path := file.path
  size := I64.ofNat file.size
  partitionValues := file.partitionValues
  stats := file.stats

def renderCheckpoint (schemaString : Except Error String) (files : List DeltaAddFile)
    (tableId : String) (partitionColumns : List String) (txn : Option DeltaTxn) :
    Except Error (List CheckpointRow) := do
  let schema ← schemaString
  let before := 2 + txn.toList.length
  return (List.range (files.length + before)).map fun row =>
    { protocol := if row = 0 then some (minReaderVersion,minWriterVersion) else none
      metaData := if row = 1 then some (tableId,schema,partitionColumns) else none
      txn := if row = 2 then txn else none
      add := if before ≤ row then files[row - before]?.map addRow else none }

def fileOfRow (row : AddRow) : DeltaAddFile where
  path := row.path
  size := (max row.size 0).toNat
  numRecords := (row.stats.map (·.numRecords)).getD 0
  partitionValues := row.partitionValues
  stats := row.stats

def readCheckpoint (appId : Option String) (rows : List CheckpointRow) : List DeltaAddFile × Option Int :=
  (rows.filterMap fun row => row.add.map fileOfRow, (rows.filterMap (·.txn)).foldl (fun found txn =>
     if some txn.appId = appId then Scan.raiseTxn found txn.version else found) none)

def commitAttempts : Nat := 8

def defaultCheckpointInterval : Nat := 10

def checkpointFailureLimit : Nat := 3

def nullPartition : String := "__HIVE_DEFAULT_PARTITION__"

inductive StoreError where
  | notFound
  | alreadyExists
  | other (message : String)
  deriving DecidableEq, Repr

def StoreError.display : StoreError → String
  | notFound => "not found"
  | alreadyExists => "already exists"
  | other message => message

/-- Who writes a checkpoint: its application and the transaction it knows to be committed. -/
structure Author where
  appId : Option String
  committedTxn : Option Int
  deriving DecidableEq, Repr

def Author.txn (author : Author) : Option DeltaTxn :=
  author.appId.bind fun appId => author.committedTxn.map fun version => ⟨appId,version⟩

/-- The author of a checkpoint is there for the record; it is not stored. -/
inductive Request where
  | getLastCheckpoint
  | getCheckpoint (version : Nat)
  | putCheckpoint (version : Nat) (rows : List CheckpointRow) (author : Author)
  | putLastCheckpoint (version size : Nat)
  | getCommit (version : Nat)
  | putCommit (version : Nat) (body : List Action)
  | putData (path : String)

abbrev Answer : Request → Type
  | .getLastCheckpoint => Option Nat
  | .getCheckpoint _ => Except StoreError (List CheckpointRow)
  | .getCommit _ => Except StoreError (List Action)
  | .putCheckpoint _ _ _ | .putLastCheckpoint _ _ | .putCommit _ _ | .putData _ => Except StoreError Unit

abbrev Method (σ : Type) := Act Request Answer σ Error

def stored {σ : Type} (doing : String) (answer : Except StoreError Unit) : Method σ Unit :=
  match answer with
  | .ok () => pure ()
  | .error e => Act.fail (.io (doing ++ ": " ++ e.display))

def padded (width value : Nat) : String :=
  String.ofList (List.replicate (width - (toString value).length) '0') ++ toString value

def objectPathJoin (root relative : String) : String :=
  "/".intercalate (((root ++ "/" ++ relative).splitOn "/").filter (· ≠ ""))

def commitPath (root : String) (version : Nat) : String :=
  let name := padded 20 version
  objectPathJoin root s!"_delta_log/{name}.json"

def checkpointPath (root : String) (version : Nat) : String :=
  let name := padded 20 version
  objectPathJoin root s!"_delta_log/{name}.checkpoint.parquet"

namespace LogState
variable {σ : Type}

/-- The commits from `version` on, until one is missing. A pass that runs out of `reads` is one that
the store fails. -/
def readCommits (root : String) (appId : Option String) : Nat → Nat → Scan → Method σ LogState
  | 0,version,_ =>
    let path := commitPath root version
    Act.fail (.io s!"read `{path}`: timed out")
  | reads+1,version,scan => do
    let answer : Except StoreError (List Action) ← Act.request (Request.getCommit version)
    match answer with
    | .ok body => readCommits root appId reads (version + 1) (scan.commit appId body)
    | .error .notFound => return scan.state version
    | .error e =>
      let path := commitPath root version
      Act.fail (.io (s!"read `{path}`: " ++ e.display))

/-- The newest checkpoint, if any, and every commit after it. An unreadable checkpoint leaves the
file set unknown. -/
def read (root : String) (appId : Option String) (reads : Nat) : Method σ LogState := do
  let hint : Option Nat ← Act.request Request.getLastCheckpoint
  match hint with
  | none => readCommits root appId reads 0 {}
  | some version =>
    let answer : Except StoreError (List CheckpointRow) ← Act.request (Request.getCheckpoint version)
    match answer with
    | .ok rows =>
      let (live,committedTxn) := readCheckpoint appId rows
      readCommits root appId reads (version + 1) {live,committedTxn}
    | .error _ => readCommits root appId reads (version + 1) {trustworthy := false}

end LogState

structure DeltaWriterConfig where
  tableId : String
  partitionColumns : List String := []
  appId : Option String := none
  checkpointInterval : Nat := defaultCheckpointInterval
  deriving DecidableEq, Repr

structure PartitionGroup where
  partitionValues : BTreeMap String := ∅
  numRecords : Nat
  size : Nat
  columns : String := ""
  /-- No allocation is larger than `isize::MAX` bytes. -/
  allocated : size < 2 ^ 63
  deriving DecidableEq

def PartitionGroup.file (group : PartitionGroup) (path : String) : DeltaAddFile where
  path := path
  size := group.size
  numRecords := group.numRecords
  partitionValues := group.partitionValues
  stats := some ⟨group.numRecords,group.columns⟩

structure DeltaCommit where
  version : Nat
  rows : Nat
  files : List DeltaAddFile
  deduplicated : Bool
  deriving DecidableEq

structure DeltaTableWriter where
  root : String
  schemaString : Except Error String
  config : DeltaWriterConfig
  nextVersion : Nat
  liveFiles : Option (List DeltaAddFile)
  committedTxn : Option Int
  fileCounter : Nat := 0
  checkpointFailures : Nat := 0
  deriving DecidableEq

def hexDigit (value : Nat) : Char := (Nat.digitChar value).toUpper

def escapePartition (text : String) : String :=
  String.ofList (text.toList.flatMap fun c =>
    if "/=: %\\?#[]".toList.contains c then ['%',hexDigit (c.toNat / 16),hexDigit (c.toNat % 16)]
    else [c])

def partitionDir (values : BTreeMap String) (partitionColumns : List String) : Option String :=
  if partitionColumns.isEmpty then none
  else some ("/".intercalate (partitionColumns.map fun column =>
    escapePartition column ++ "=" ++ escapePartition (values[column]?.getD nullPartition)))

namespace DeltaTableWriter

def bound (root : String) (schemaString : Except Error String) (config : DeltaWriterConfig)
    (state : LogState) : DeltaTableWriter where
  root := root
  schemaString := schemaString
  config := config
  nextVersion := state.nextVersion
  liveFiles := state.liveFiles
  committedTxn := state.committedTxn

def «open» {σ : Type} (root : String) (schemaString : Except Error String)
    (config : DeltaWriterConfig) (reads : Nat) : Method σ DeltaTableWriter := do
  return bound root schemaString config (← LogState.read root config.appId reads)

def filePath (writer : DeltaTableWriter) (filePrefix : String) (index : Nat) (group : PartitionGroup) : String :=
  let counter := padded 5 writer.fileCounter
  let name := s!"part-{counter}-{filePrefix}-{index}-c000.snappy.parquet"
  (partitionDir group.partitionValues writer.config.partitionColumns).elim name fun dir => s!"{dir}/{name}"

def writeGroups (filePrefix : String) : Nat → List PartitionGroup → Method DeltaTableWriter (List DeltaAddFile)
  | _,[] => pure []
  | index,group::groups =>
    if group.numRecords = 0 then writeGroups filePrefix (index + 1) groups
    else do
      let writer ← Act.get
      let path := writer.filePath filePrefix index group
      let key := objectPathJoin writer.root path
      stored s!"write `{key}`" (← Act.request (.putData path))
      let files ← writeGroups filePrefix (index + 1) groups
      return group.file path::files

def writeDataFiles (groups : List PartitionGroup) (filePrefix : String) :
    Method DeltaTableWriter (List DeltaAddFile) := do
  let files ← writeGroups filePrefix 0 groups
  Act.modify fun writer => {writer with fileCounter := writer.fileCounter + 1}
  return files

def overwriteRefused (writer : DeltaTableWriter) : Error :=
  .execution (s!"cannot overwrite `{writer.root}`: another writer has compacted or vacuumed it, " ++
    "so Oxidant's view of which files are live is not authoritative")

def retired (writer : DeltaTableWriter) (retireLive : Bool) : Except Error (List DeltaAddFile) :=
  if retireLive then
    match writer.liveFiles with
    | some live => .ok live
    | none => .error writer.overwriteRefused
  else .ok []

def adopt (writer : DeltaTableWriter) (state : LogState) : DeltaTableWriter :=
  {writer with
    nextVersion := state.nextVersion
    liveFiles := state.liveFiles
    committedTxn := state.committedTxn}

/-- Put the commit at the next version, and after a lost race read the log and try again. -/
def commitInner (files : List DeltaAddFile) (txn : Option DeltaTxn) (retireLive : Bool)
    (reads : Nat) : Nat → Method DeltaTableWriter Nat
  | 0 => do
    let writer ← Act.get
    Act.fail (.io (s!"Delta commit lost {commitAttempts} version races on `{writer.root}` — " ++
      "another writer is appending to this table concurrently"))
  | attempts+1 => do
    let writer ← Act.get
    let removes ← Act.raise (writer.retired retireLive)
    let body ← Act.raise (renderCommitWithRemoves writer.nextVersion writer.schemaString files
      removes writer.config.tableId writer.config.partitionColumns txn)
    let answer : Except StoreError Unit ← Act.request (Request.putCommit writer.nextVersion body)
    match answer with
    | .ok () => return writer.nextVersion
    | .error e =>
      if e = .alreadyExists ∧ 0 < attempts then do
        let state ← LogState.read writer.root writer.config.appId reads
        Act.modify fun writer => writer.adopt state
        commitInner files txn retireLive reads attempts
      else
        let path := commitPath writer.root writer.nextVersion
        Act.fail (.io (s!"commit `{path}`: " ++ e.display))

def author (writer : DeltaTableWriter) : Author := ⟨writer.config.appId,writer.committedTxn⟩

def writeCheckpoint (version : Nat) : Method DeltaTableWriter Unit := do
  let writer ← Act.get
  match writer.liveFiles with
  | none => return ()
  | some live =>
    let rows ← Act.raise (renderCheckpoint writer.schemaString live writer.config.tableId
      writer.config.partitionColumns writer.author.txn)
    let path := checkpointPath writer.root version
    stored s!"write checkpoint `{path}`" (← Act.request (.putCheckpoint version rows writer.author))
    let hint := objectPathJoin writer.root "_delta_log/_last_checkpoint"
    stored s!"write `{hint}`" (← Act.request (.putLastCheckpoint version (live.length + 2)))

def checkpointDue (writer : DeltaTableWriter) (version : Nat) : Bool :=
  writer.config.checkpointInterval ≠ 0 &&
    (version + 1) % writer.config.checkpointInterval = 0 && writer.liveFiles.isSome

def checkpointFailed (writer : DeltaTableWriter) : DeltaTableWriter :=
  {writer with
    checkpointFailures := writer.checkpointFailures + 1
    config := if checkpointFailureLimit ≤ writer.checkpointFailures + 1
      then {writer.config with checkpointInterval := 0} else writer.config}

def maybeCheckpoint (version : Nat) : Method DeltaTableWriter Unit := do
  let writer ← Act.get
  if writer.checkpointDue version then
    match ← Act.attempt (writeCheckpoint version) with
    | .ok () => Act.modify fun writer => {writer with checkpointFailures := 0}
    | .error _ => Act.modify checkpointFailed
  else return ()

def isReplay (writer : DeltaTableWriter) (txnVersion : Option Int) : Bool :=
  match txnVersion,writer.committedTxn with
  | some version,some committed => version ≤ committed
  | _,_ => false

def unwritten (writer : DeltaTableWriter) (deduplicated : Bool) : DeltaCommit where
  version := writer.nextVersion
  rows := 0
  files := []
  deduplicated := deduplicated

def stamp (writer : DeltaTableWriter) (txnVersion : Option Int) : Option DeltaTxn :=
  txnVersion.bind fun version => writer.config.appId.map fun appId => ⟨appId,version⟩

def committed (writer : DeltaTableWriter) (version : Nat) (txn : Option DeltaTxn)
    (liveFiles : Option (List DeltaAddFile)) : DeltaTableWriter :=
  {writer with
    nextVersion := version + 1
    committedTxn := (txn.map (·.version)).or writer.committedTxn
    liveFiles}

def totalRecords (groups : List PartitionGroup) : Nat := (groups.map (·.numRecords)).sum

def append (groups : List PartitionGroup) (filePrefix : String) (txnVersion : Option Int)
    (reads : Nat) : Method DeltaTableWriter DeltaCommit := do
  let writer ← Act.get
  if totalRecords groups = 0 then return writer.unwritten false
  else if writer.isReplay txnVersion then return writer.unwritten true
  else do
    let files ← writeDataFiles groups filePrefix
    let txn := writer.stamp txnVersion
    let version ← commitInner files txn false reads commitAttempts
    Act.modify fun writer => writer.committed version txn (writer.liveFiles.map (· ++ files))
    maybeCheckpoint version
    return {version,rows := totalRecords groups,files,deduplicated := false}

/-- Unlike an append, a replacement by no rows is a commit: it empties the table. -/
def replace (groups : List PartitionGroup) (filePrefix : String) (txnVersion : Option Int)
    (reads : Nat) : Method DeltaTableWriter DeltaCommit := do
  let writer ← Act.get
  if writer.isReplay txnVersion then return writer.unwritten true
  else if writer.liveFiles.isNone then Act.fail writer.overwriteRefused
  else do
    let files ← writeDataFiles groups filePrefix
    let txn := writer.stamp txnVersion
    let version ← commitInner files txn true reads commitAttempts
    Act.modify fun writer => writer.committed version txn (some files)
    maybeCheckpoint version
    return {version,rows := totalRecords groups,files,deduplicated := false}

end DeltaTableWriter
end Oxidant.Delta
