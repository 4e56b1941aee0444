import Oxidant.Delta.Writer
import Oxidant.Lib.Pool
import Mathlib.Data.List.Basic

/-! One Delta table in an object store, where a request can work, fail without an effect, or take
effect without being acknowledged; and the table as the operations on it executed one after
another: a pass over a log that carries them, or over a checkpoint of it, gathers just that. -/
namespace Oxidant.Delta
open Lib

inductive Call where
  | «open» (schemaString : Except Error String) (config : DeltaWriterConfig) (reads : Nat)
  | append (groups : List PartitionGroup) (filePrefix : String) (txnVersion : Option Int)
      (reads : Nat)
  | replace (groups : List PartitionGroup) (filePrefix : String) (txnVersion : Option Int)
      (reads : Nat)
  deriving DecidableEq

def Call.retires : Call → Bool
  | replace _ _ _ _ => true
  | _ => false

def Call.txnVersion : Call → Option Int
  | append _ _ txnVersion _ | replace _ _ txnVersion _ => txnVersion
  | «open» _ _ _ => none

namespace Action

def txn? : Action → Option DeltaTxn
  | .txn (some appId) (some version) => some ⟨appId,version⟩
  | _ => none

def add? : Action → Option DeltaAddFile
  | .add members => addFromJson members
  | _ => none

def remove? : Action → Option String
  | .remove path => path
  | _ => none

end Action

def txnOf (body : List Action) : Option DeltaTxn := body.findSome? Action.txn?

def addsOf (body : List Action) : List DeltaAddFile := body.filterMap Action.add?

def removesOf (body : List Action) : List String := body.filterMap Action.remove?

structure Operation where
  retires : Bool
  txn : Option DeltaTxn
  files : List DeltaAddFile
  deriving DecidableEq

def Operation.of (call : Call) (body : List Action) : Operation where
  retires := call.retires
  txn := txnOf body
  files := addsOf body

structure Store (ι : Type) where
  commits : Nat → Option (List Action) := fun _ => none
  checkpoints : Nat → Option (List CheckpointRow) := fun _ => none
  lastCheckpoint : Option Nat := none
  data : List (String × ι) := []
  /-- The operations whose commits landed, in their order. No request reads it. -/
  history : List Operation := []
  /-- Who wrote each checkpoint. No request reads it. -/
  authors : Nat → Option Author := fun _ => none

inductive Fault where
  | works
  | fails
  | unacknowledged
  deriving DecidableEq, Repr

namespace Store
variable {ι : Type}

def disconnected : StoreError := .other "connection reset"

def found {α : Type} (fault : Fault) (value : Option α) : Except StoreError α :=
  match fault with
  | .works => value.elim (.error .notFound) .ok
  | _ => .error disconnected

def put (fault : Fault) (before after : Store ι) : Except StoreError Unit × Store ι :=
  match fault with
  | .works => (.ok (),after)
  | .fails => (.error disconnected,before)
  | .unacknowledged => (.error disconnected,after)

def withCommit (store : Store ι) (call : Call) (version : Nat) (body : List Action) : Store ι :=
  {store with
    commits := fun other => if other = version then some body else store.commits other
    history := store.history ++ [Operation.of call body]}

def withCheckpoint (store : Store ι) (version : Nat) (rows : List CheckpointRow) (author : Author) : Store ι :=
  {store with
    checkpoints := fun other => if other = version then some rows else store.checkpoints other
    authors := fun other => if other = version then some author else store.authors other}

def withData (store : Store ι) (path : String) (member : ι) : Store ι :=
  {store with data := store.data ++ [(path,member)]}

/-- A commit is put only if its version has none, and only then is it said to exist. -/
def putCommit (fault : Fault) (store : Store ι) (call : Call) (version : Nat)
    (body : List Action) : Except StoreError Unit × Store ι :=
  if (store.commits version).isSome then
    (.error (if fault = .works then .alreadyExists else disconnected),store)
  else put fault store (store.withCommit call version body)

def reply (member : ι) (call : Call) : Device Request Answer Fault (Store ι)
  | fault,store,.getLastCheckpoint => (if fault = .works then store.lastCheckpoint else none,store)
  | fault,store,.getCheckpoint version => (found fault (store.checkpoints version),store)
  | fault,store,.getCommit version => (found fault (store.commits version),store)
  | fault,store,.putCheckpoint version rows author => put fault store (store.withCheckpoint version rows author)
  | fault,store,.putLastCheckpoint version _ => put fault store {store with lastCheckpoint := some version}
  | fault,store,.putCommit version body => putCommit fault store call version body
  | fault,store,.putData path => put fault store (store.withData path member)

/-- The assumption that every data file gets a name of its own, for which the writers take a
random prefix. -/
def Fresh (store : Store ι) : Request → Prop
  | .putData path => path ∉ store.data.map (·.1)
  | _ => True

instance (store : Store ι) : ∀ request, Decidable (store.Fresh request)
  | .putData path => inferInstanceAs (Decidable (path ∉ store.data.map (·.1)))
  | .getLastCheckpoint | .getCheckpoint _ | .putCheckpoint _ _ _ | .putLastCheckpoint _ _
  | .getCommit _ | .putCommit _ _ => .isTrue trivial

end Store

def opened {α : Type} (method : Method DeltaTableWriter α) : Method (Option DeltaTableWriter) α
  | none => .done (.error (.execution "the table is not open"),none)
  | some writer => (method writer).bind fun (result,after) => .done (result,some after)

def Call.body (root : String) : Call → Method (Option DeltaTableWriter) (Option DeltaCommit)
  | «open» schemaString config reads => do
    let writer ← DeltaTableWriter.open root schemaString config reads
    Act.modify fun _ => some writer
    return none
  | append groups filePrefix txnVersion reads =>
    opened do return some (← DeltaTableWriter.append groups filePrefix txnVersion reads)
  | replace groups filePrefix txnVersion reads =>
    opened do return some (← DeltaTableWriter.replace groups filePrefix txnVersion reads)

def table (ι : Type) (root : String) : Service ι Request Answer Fault (Store ι) Call
    (Option DeltaTableWriter) Error (Option DeltaCommit) where
  body := Call.body root
  device := Store.reply
  fresh := none

abbrev Writers (ι : Type) :=
  Pool ι Request Answer (Store ι) Call (Option DeltaTableWriter) Error (Option DeltaCommit)

def noTable {ι : Type} : Writers ι where
  world := {}
  members := fun _ => .idle none

open List

def Operation.execute (live : List DeltaAddFile) (operation : Operation) : List DeltaAddFile :=
  if operation.retires then operation.files else live ++ operation.files

def serial (history : List Operation) : List DeltaAddFile := history.foldl Operation.execute []

@[simp] lemma serial_append (history operation) :
    serial (history ++ [operation]) = operation.execute (serial history) := by
  simp [serial]

def paths (history : List Operation) : List String :=
  (history.flatMap (·.files)).map (·.path)

@[simp] lemma paths_append (history more) : paths (history ++ more) = paths history ++ paths more := by
  simp [paths]

lemma serial_sublist (history) : (serial history).Sublist (history.flatMap (·.files)) := by
  have grows : ∀ (live : List DeltaAddFile) (history : List Operation),
      (history.foldl Operation.execute live).Sublist (live ++ history.flatMap (·.files)) := by
    intro live history
    induction history generalizing live with
    | nil => simp
    | cons operation history ih =>
      apply (ih _).trans
      rw [flatMap_cons,← append_assoc]
      refine List.Sublist.append_right ?_ _
      unfold Operation.execute
      split
      · exact sublist_append_right _ _
      · exact List.Sublist.refl _
  exact grows [] history

variable {file : DeltaAddFile}

lemma serial_distinct (distinct : (paths history).Nodup) : ((serial history).map (·.path)).Nodup :=
  List.Sublist.nodup ((serial_sublist history).map _) distinct

structure DeltaAddFile.Written (file : DeltaAddFile) : Prop where
  sized : file.size < 2 ^ 63
  counted : file.stats.map (·.numRecords) = some file.numRecords

lemma DeltaAddFile.Written.stats (written : file.Written) :
    ∃ stats, file.stats = some stats ∧ stats.numRecords = file.numRecords := by
  obtain ⟨stats,there,count⟩ := Option.map_eq_some_iff.mp written.counted
  exact ⟨stats,there,count⟩

lemma DeltaAddFile.Written.add?_addAction (written : file.Written) : (addAction file).add? = some file := by
  obtain ⟨stats,there,count⟩ := written.stats
  obtain ⟨path,size,numRecords,partitionValues,_⟩ := file
  subst there count
  rfl

lemma fileOfRow_addRow (written : file.Written) : fileOfRow (addRow file) = file := by
  obtain ⟨stats,there,count⟩ := written.stats
  have small := written.sized
  obtain ⟨path,size,numRecords,partitionValues,_⟩ := file
  subst there count
  have exact : I64.ofNat size = size := by
    simp only at small
    apply Int.bmod_eq_of_le <;> omega
  simp [fileOfRow,addRow,exact]

def Action.declares : Action → Bool
  | .protocol _ _ | .metaData _ _ _ => true
  | _ => false

def Operation.removes (operation : Operation) (live : List DeltaAddFile) : List DeltaAddFile :=
  if operation.retires then live else []

def Carries (live : List DeltaAddFile) (operation : Operation) (body : List Action) : Prop :=
  ∃ header : List Action, (∀ action ∈ header, action.declares) ∧
    body = header ++ operation.txn.toList.map txnAction ++
      (operation.removes live).map removeAction ++ operation.files.map addAction

lemma commitHeader_declares (made : commitHeader version schemaString tableId partitionColumns = .ok header) :
    ∀ action ∈ header, action.declares := by
  unfold commitHeader at made
  split at made
  · cases schemaString with
    | error e => cases made
    | ok schema =>
      cases made
      simp [Action.declares]
  · cases made
    simp

lemma renderCommitWithRemoves_carries (operation)
    (made : renderCommitWithRemoves version schemaString operation.files (operation.removes live) tableId
        partitionColumns operation.txn = .ok body) :
    Carries live operation body := by
  unfold renderCommitWithRemoves at made
  cases declared : commitHeader version schemaString tableId partitionColumns with
  | error e =>
    rw [declared] at made
    cases made
  | ok header =>
    rw [declared] at made
    cases made
    exact ⟨header,commitHeader_declares declared,rfl⟩

namespace Carries
private lemma filterMap_eq
    (skips : ∀ action, action.declares → pick action = none) (carries : Carries live operation body)
    :
    body.filterMap pick = operation.txn.toList.filterMap (pick ∘ txnAction) ++
      (operation.removes live).filterMap (pick ∘ removeAction) ++
      operation.files.filterMap (pick ∘ addAction) := by
  obtain ⟨header,declares,rfl⟩ := carries
  have skipped : header.filterMap pick = [] :=
    filterMap_eq_nil_iff.mpr fun action member => skips action (declares action member)
  simp [filterMap_append,filterMap_map,skipped]

lemma removesOf_eq (carries : Carries live operation body) :
    removesOf body = (operation.removes live).map (·.path) := by
  refine (carries.filterMap_eq ?_).trans ?_
  · intro action declares
    cases action <;> first | rfl | cases declares
  · cases operation.txn <;>
      simp [Function.comp_def,Action.remove?,txnAction,removeAction,addAction]

lemma addsOf_eq (carries : Carries live operation body)
    (written : ∀ file ∈ operation.files, file.Written) : addsOf body = operation.files := by
  refine (carries.filterMap_eq ?_).trans ?_
  · intro action declares
    cases action <;> first | rfl | cases declares
  · have kept : operation.files.filterMap (Action.add? ∘ addAction) = operation.files :=
      (filterMap_congr fun file member => (written file member).add?_addAction).trans filterMap_some
    rw [kept]
    cases operation.txn <;> simp [Function.comp_def,Action.add?,txnAction,removeAction]

lemma txns_eq (carries : Carries live operation body) : body.filterMap Action.txn? = operation.txn.toList := by
  refine (carries.filterMap_eq ?_).trans ?_
  · intro action declares
    cases action <;> first | rfl | cases declares
  · cases operation.txn <;>
      simp [Function.comp_def,Action.txn?,txnAction,removeAction,addAction]

lemma txnOf_eq (carries : Carries live operation body) : txnOf body = operation.txn := by
  unfold txnOf
  rw [← head?_filterMap,carries.txns_eq]
  cases operation.txn <;> rfl

end Carries

def DeltaTxn.under (appId : Option String) (txn : DeltaTxn) : Option Int :=
  if some txn.appId = appId then some txn.version else none

def txnVersions (appId : Option String) (history : List Operation) : List Int :=
  (history.filterMap (·.txn)).filterMap (·.under appId)

lemma mem_txnVersions :
    version ∈ txnVersions appId history ↔
    ∃ id, appId = some id ∧ ∃ operation ∈ history, operation.txn = some ⟨id,version⟩ := by
  simp only [txnVersions,mem_filterMap,DeltaTxn.under]
  constructor
  · rintro ⟨⟨id,number⟩,⟨operation,member,stamped⟩,picked⟩
    split at picked
    · next same =>
      cases picked
      exact ⟨id,same.symm,operation,member,stamped⟩
    · cases picked
  · rintro ⟨id,rfl,operation,member,stamped⟩
    exact ⟨⟨id,version⟩,⟨operation,member,stamped⟩,by simp⟩

namespace Scan

section
variable (appId : Option String) (scan : Scan)
include appId scan

@[simp] lemma commit_append :
    scan.commit appId (first ++ second) = (scan.commit appId first).commit appId second := by
  simp [commit]

lemma commit_declares (declares : ∀ action ∈ header, action.declares) : scan.commit appId header = scan := by
  induction header generalizing scan with
  | nil => rfl
  | cons action header ih =>
    have first := declares action mem_cons_self
    have same : scan.apply appId action = scan := by cases action <;> first | rfl | cases first
    refine (congrArg (Scan.commit appId · header) same).trans (ih scan fun later member => ?_)
    exact declares later (mem_cons_of_mem action member)

lemma commit_adds (written : ∀ file ∈ files, file.Written) :
    scan.commit appId (files.map addAction) = {scan with live := scan.live ++ files} := by
  induction files generalizing scan with
  | nil => simp [commit]
  | cons file files ih =>
    have first : scan.apply appId (addAction file) = {scan with live := scan.live ++ [file]} := by
      have read := (written file mem_cons_self).add?_addAction
      simp only [Action.add?,addAction] at read
      simp only [apply,addAction,read]
    apply (congrArg (Scan.commit appId · (files.map addAction)) first).trans
    rw [ih _ fun later member => written later (mem_cons_of_mem file member)]
    simp

lemma commit_removes (distinct : (scan.live.map (·.path)).Nodup) :
    scan.commit appId (scan.live.map removeAction) = {scan with live := []} := by
  obtain ⟨live,committedTxn,trustworthy⟩ := scan
  induction live with
  | nil => rfl
  | cons file live ih =>
    obtain ⟨apart,rest⟩ := nodup_cons.mp distinct
    have first : Scan.apply appId ⟨file::live,committedTxn,trustworthy⟩ (removeAction file) =
        ⟨live,committedTxn,trustworthy⟩ := by
      have others : live.filter (·.path != file.path) = live := by
        refine filter_eq_self.mpr fun other member => ?_
        simp only [bne_iff_ne,ne_eq]
        intro same
        exact apart (mem_map.mpr ⟨other,member,same⟩)
      simp [apply,removeAction,retire,others]
    exact (congrArg (Scan.commit appId · (live.map removeAction)) first).trans (ih rest)

lemma commit_txns (txns : List DeltaTxn) :
    ∃ committed, scan.commit appId (txns.map txnAction) = {scan with committedTxn := committed} := by
  induction txns generalizing scan with
  | nil => exact ⟨_,rfl⟩
  | cons txn txns ih =>
    have first : ∃ committed, scan.apply appId (txnAction txn) = {scan with committedTxn := committed} := by
      simp only [apply,txnAction]
      split
      · exact ⟨_,rfl⟩
      · exact ⟨_,rfl⟩
    obtain ⟨committed,same⟩ := first
    obtain ⟨later,rest⟩ := ih {scan with committedTxn := committed}
    exact ⟨later,(congrArg (Scan.commit appId · (txns.map txnAction)) same).trans rest⟩

lemma commit_carries (carries : Carries scan.live operation body)
    (distinct : (scan.live.map (·.path)).Nodup) (written : ∀ file ∈ operation.files, file.Written) :
    (scan.commit appId body).live = operation.execute scan.live ∧
      (scan.commit appId body).trustworthy = scan.trustworthy := by
  obtain ⟨header,declares,rfl⟩ := carries
  obtain ⟨committed,stamped⟩ := commit_txns appId scan operation.txn.toList
  simp only [commit_append,commit_declares appId scan declares,stamped]
  unfold Operation.removes Operation.execute
  split
  · have emptied := commit_removes appId {scan with committedTxn := committed} distinct
    rw [emptied,commit_adds appId _ written]
    exact ⟨rfl,rfl⟩
  · rw [map_nil,show ∀ scan, commit appId scan [] = scan from fun _ => rfl,commit_adds appId _ written]
    exact ⟨rfl,rfl⟩

lemma commit_trustworthy (trusted : (scan.commit appId body).trustworthy) : scan.trustworthy := by
  induction body generalizing scan with
  | nil => exact trusted
  | cons action body ih =>
    have after := ih _ trusted
    revert after
    simp only [apply,retire]
    split <;> (try split) <;> (try split) <;> simp

lemma apply_committedTxn :
    (scan.apply appId action).committedTxn =
      (action.txn?.toList.filterMap (·.under appId)).foldl raiseTxn scan.committedTxn := by
  cases action with
  | add members =>
    simp only [apply]
    split <;> rfl
  | remove path =>
    cases path with
    | none => rfl
    | some path =>
      simp only [apply,retire]
      split <;> rfl
  | txn id version =>
    rcases id with _ | id
    · cases appId <;> rfl
    · rcases version with _ | version
      · simp only [apply,ite_self]
        rfl
      · by_cases own : some id = appId
        · subst own
          simp [apply,Action.txn?,DeltaTxn.under]
        · simp [apply,Action.txn?,DeltaTxn.under,own]
  | protocol _ _ => rfl
  | metaData _ _ _ => rfl
  | other => rfl

lemma commit_committedTxn (body) :
    (scan.commit appId body).committedTxn =
      ((body.filterMap Action.txn?).filterMap (·.under appId)).foldl raiseTxn scan.committedTxn := by
  induction body generalizing scan with
  | nil => rfl
  | cons action body ih =>
    apply (ih _).trans
    rw [apply_committedTxn]
    cases found : action.txn? <;> simp [filterMap_cons,found]
    split <;> rfl

end

lemma foldl_raiseTxn (versions) (committed : Option Int) :
    versions.foldl raiseTxn committed = (committed.toList ++ versions).max? := by
  induction versions generalizing committed with
  | nil => cases committed <;> rfl
  | cons version versions ih =>
    rw [foldl_cons,ih]
    cases committed <;> rfl

end Scan

private lemma map_range_getElem? (items : List α) (row : Option α → β) :
    (List.range items.length).map (fun index => row items[index]?) = items.map fun item => row (some item) := by
  refine ext_getElem (by simp) fun index short _ => ?_
  have inside : index < items.length := by simpa using short
  simp [inside]

lemma renderCheckpoint_rows (made : renderCheckpoint schemaString files tableId partitionColumns txn = .ok rows) :
    ∃ schema, rows =
        [{protocol := some (minReaderVersion,minWriterVersion)},
          {metaData := some (tableId,schema,partitionColumns)}] ++ txn.toList.map (fun txn => {txn := some txn}) ++
          files.map (fun file => {add := some (addRow file)}) := by
  cases schemaString with
  | error e => cases made
  | ok schema =>
    cases made
    refine ⟨schema,?_⟩
    rw [Nat.add_comm files.length,range_add,map_append]
    refine congr (congrArg _ ?_) ?_
    · cases txn <;> rfl
    · rw [map_map]
      refine Eq.trans ?_ (map_range_getElem? files fun file => ({add := file.map addRow} : CheckpointRow))
      refine map_congr_left fun index _ => ?_
      cases txn <;> simp <;> omega

lemma renderCheckpoint_txns (made : renderCheckpoint schemaString files tableId partitionColumns txn = .ok rows) :
    rows.filterMap (·.txn) = txn.toList := by
  obtain ⟨schema,rfl⟩ := renderCheckpoint_rows made
  cases txn <;> simp [filterMap_map]

lemma readCheckpoint_render (appId : Option String)
    (made : renderCheckpoint schemaString files tableId partitionColumns txn = .ok rows)
    (written : ∀ file ∈ files, file.Written) :
    readCheckpoint appId rows = (files,(txn.toList.filterMap (·.under appId)).foldl Scan.raiseTxn none) := by
  obtain ⟨schema,rfl⟩ := renderCheckpoint_rows made
  have back := (filterMap_congr fun file member => congrArg some
      (fileOfRow_addRow (written file member))).trans filterMap_some
  apply Prod.ext
  · cases txn <;> simpa [readCheckpoint,filterMap_map,Function.comp_def] using back
  · cases txn with
    | none => simp [readCheckpoint,filterMap_map]
    | some txn =>
      simp [readCheckpoint,filterMap_map,filterMap_cons,DeltaTxn.under]
      split <;> rfl
end Oxidant.Delta
