import Mathlib.Data.List.Flatten
import Oxidant.Delta.Protocol

/-! Concurrent writers of a Delta table act as if one after another, in the order of their
commits. -/
namespace Oxidant.Delta
open Lib

def Store.scan (store : Store ι) (appId : Option String) : Nat → Option Scan
  | 0 => some {}
  | version+1 => do
    let scan ← store.scan appId version
    let body ← store.commits version
    return scan.commit appId body

def Store.replay (store : Store ι) (version : Nat) : Option (List DeltaAddFile) := do
  let scan ← store.scan none version
  (scan.state version).liveFiles

lemma Sound.scan_snapshot (sound : Sound store) (appId) (reached : version ≤ store.history.length) :
    ∃ scan, store.scan appId version = some scan ∧
      scan.live = serial (store.history.take version) ∧ scan.trustworthy := by
  induction version with
  | zero => exact ⟨{},rfl,rfl,rfl⟩
  | succ version ih =>
    obtain ⟨scan,read,live,trusted⟩ := ih (Nat.le_of_succ_le reached)
    obtain ⟨body,there⟩ := Option.isSome_iff_exists.mp ((sound.versions version).mpr reached)
    obtain ⟨executed,kept⟩ := sound.scan_commit appId there live
    exact ⟨scan.commit appId body,by simp [Store.scan,read,there],executed,kept.trans trusted⟩

lemma Sound.replay_eq (sound : Sound store) (reached : version ≤ store.history.length) :
    store.replay version = some (serial (store.history.take version)) := by
  obtain ⟨scan,read,live,trusted⟩ := sound.scan_snapshot none reached
  simp [Store.replay,read,Scan.state,trusted,live]

/-- The log reads as the operations executed one after another, and so does every writer's
picture of it. -/
structure Serializes (pool : Writers ι) : Prop where
  cached : ∀ member writer live, pool.members member = .idle (some writer) →
    writer.liveFiles = some live → pool.world.replay writer.nextVersion = some live
  retired : ∀ version operation, pool.world.history[version]? = some operation →
    ∃ body live, pool.world.commits version = some body ∧
      pool.world.replay version = some live ∧
      removesOf body = (if operation.retires then live.map (·.path) else []) ∧
      addsOf body = operation.files
  returned : ∀ member call commit, (member,call,.ok (some commit)) ∈ pool.returned →
    call.Landed commit → ∃ operation, pool.world.history[commit.version]? = some operation ∧
      operation.retires = call.retires ∧ operation.files = commit.files
  serial : pool.world.replay pool.world.history.length = some (serial pool.world.history)
  complete : ∀ version, (pool.world.commits version).isSome ↔
    version < pool.world.history.length

/-- However the requests of any number of writers interleave or fail, every writer not in a call
knows the files of the log up to its version, every replacement retires just the files live before
it, and the log reads as the operations in the order of their versions. -/
theorem commits_serialize [DecidableEq ι] (root : String) (events : List (Event ι Fault Call))
    (fresh : noTable.Meets (table ι root) (Pool.Requests Store.Fresh) events) :
    Serializes (noTable.run (table ι root) events) := by
  have holds := contract_holds root fresh
  have sound := holds.inv
  refine ⟨?_,?_,?_,?_,sound.versions⟩
  · intro member writer live resting known
    have rests : Rests (some writer) (noTable.run (table ι root) events).world := by
      have held := holds.members member
      rwa [resting] at held
    obtain ⟨reached,same,_⟩ := rests writer rfl
    exact (sound.replay_eq reached).trans (congrArg some (same live known).symm)
  · intro version operation known
    have inside := (List.getElem?_eq_some_iff.mp known).1
    obtain ⟨body,there⟩ := Option.isSome_iff_exists.mp ((sound.versions version).mpr inside)
    have carries := sound.carries version body operation there known
    refine ⟨body,_,there,sound.replay_eq (le_of_lt inside),?_,
      carries.addsOf_eq (sound.written operation (List.mem_of_getElem? known))⟩
    rw [carries.removesOf_eq,Operation.removes]
    split <;> rfl
  · intro member call commit entry landed
    exact holds.returned _ entry commit rfl landed
  · rw [sound.replay_eq le_rfl,List.take_length]

/-- What the writers of the sample runs append. -/
def orders : PartitionGroup where
  numRecords := 3
  size := 100
  allocated := by decide

/-- Two of them are numbered by `Fin 2`. -/
instance twoWriters : NeZero (1 + 1) := ⟨by decide⟩

/-- Two writers open the empty table: one appends, and one replaces after losing the race for
version 0. -/
def racedReplace : List (Event (Fin 2) Fault Call) :=
  let config : DeltaWriterConfig := {tableId := "orders",appId := some "a"}
  [.call 0 (.open (.ok "schema") config 8),.step 0 .works,.step 0 .works,
    .call 1 (.open (.ok "schema") config 8),.step 1 .works,.step 1 .works,
    .call 0 (.append [orders] "first" (some 1) 8),.step 0 .works,.step 0 .works,
    .call 1 (.replace [orders] "second" none 8),.step 1 .works,.step 1 .works,
    .step 1 .works,.step 1 .works,.step 1 .works,.step 1 .works]

theorem racedReplace_serializes :
    ((noTable.run (table (Fin 2) "orders") racedReplace).world.history.map (·.retires)) = [false,true] ∧
      Serializes (noTable.run (table (Fin 2) "orders") racedReplace) :=
  ⟨by decide,commits_serialize "orders" racedReplace (by decide)⟩

/-- The log can be read up to a version: its live files are in the store, each once. -/
def Store.Readable (store : Store ι) (version : Nat) : Prop :=
  ∃ live, store.replay version = some live ∧ (live.map (·.path)).Nodup ∧
    ∀ file ∈ live, file.path ∈ store.data.map (·.1)

lemma Sound.readable (sound : Sound store) (reached : version ≤ store.history.length) : store.Readable version := by
  have named := ((serial_sublist _).trans ((store.history.take_sublist version).flatMap Operation.files)).map (·.path)
  exact ⟨_,sound.replay_eq reached,named.nodup sound.distinct,
    fun file mem => sound.stored _ (named.subset (List.mem_map_of_mem mem))⟩

end Oxidant.Delta
